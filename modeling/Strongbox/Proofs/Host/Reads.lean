import Strongbox.Proofs.Command.Equations

/-! # Reads of an input

A reader may cut an input anywhere, as long as each read gets at least one byte and no more than
the buffer holds. The schedules of the model lead to such reads, and to all of them. -/

namespace Strongbox

/-- Reads, one after another, that take all of an input into a buffer of `size` bytes. -/
structure Reads (size : Nat) (input : Bytes) (reads : List Bytes) : Prop where
  flatten : reads.flatten = input
  bounds : ∀ read ∈ reads, 0 < read.length ∧ read.length ≤ size

theorem Reads.nil (size : Nat) : Reads size [] [] := ⟨rfl, nofun⟩

theorem Reads.cons {size : Nat} {read input : Bytes} {reads : List Bytes}
    (hpos : 0 < read.length) (hle : read.length ≤ size) (h : Reads size input reads) :
    Reads size (read ++ input) (read :: reads) where
  flatten := by rw [List.flatten_cons, h.flatten]
  bounds := List.forall_mem_cons.mpr ⟨⟨hpos, hle⟩, h.bounds⟩

namespace World

theorem readSize_le (schedule : Nat → Option Nat) (source : Source) (size k position : Nat) :
    readSize schedule source size k position ≤ size := by
  simp only [readSize]
  split
  · exact Nat.min_le_right _ size
  · exact source.readSize_le size position

theorem readSize_of_schedule {schedule : Nat → Option Nat} {size n k : Nat}
    (h : schedule k = some n) (hpos : 0 < n) (hle : n ≤ size) (source : Source) (position : Nat) :
    readSize schedule source size k position = n := by
  obtain ⟨n, rfl⟩ := Nat.exists_eq_add_one.mpr hpos
  rw [readSize, h]
  exact Nat.min_eq_left hle

theorem deliver_of_ne_nil (schedule : Nat → Option Nat) (source : Source)
    (size k position fuel : Nat) {input : Bytes} (h : input ≠ []) :
    deliver schedule source size k position (fuel + 1) input =
      input.take (readSize schedule source size k position) ::
        deliver schedule source size (k + 1)
          (position + readSize schedule source size k position) fuel
          (input.drop (readSize schedule source size k position)) := by
  cases input with
  | nil => exact absurd rfl h
  | cons b rest => rfl

/-- What is delivered are reads of the input, by induction on the fuel. -/
theorem deliver_reads (schedule : Nat → Option Nat) (source : Source) {size : Nat}
    (hsize : 0 < size) (k position fuel : Nat) (input : Bytes) (hfuel : input.length ≤ fuel) :
    Reads size input (deliver schedule source size k position fuel input) := by
  induction fuel generalizing k position input with
  | zero =>
      obtain rfl := List.eq_nil_of_length_eq_zero (Nat.le_zero.mp hfuel)
      exact .nil size
  | succ fuel ih =>
      by_cases hinput : input = []
      · subst hinput
        exact .nil size
      · rw [deliver_of_ne_nil _ _ _ _ _ _ hinput]
        have hpos := readSize_pos schedule source k position hsize
        have hle := readSize_le schedule source size k position
        have hlong := List.length_pos_iff.mpr hinput
        generalize readSize schedule source size k position = n at hpos hle ⊢
        have hread : (input.take n).length = min n input.length := List.length_take
        have hrest : (input.drop n).length ≤ fuel := by
          rw [List.length_drop]
          omega
        have hreads := (ih (k + 1) (position + n) _ hrest).cons
          (show 0 < (input.take n).length by omega) (show (input.take n).length ≤ size by omega)
        rwa [List.take_append_drop] at hreads

/-- Reads are delivered where the schedule lays down their lengths, by induction on the reads. -/
theorem deliver_of_reads {schedule : Nat → Option Nat} {size : Nat} {input : Bytes}
    {reads : List Bytes} (h : Reads size input reads) (source : Source) {k : Nat}
    (hschedule : ∀ i (hi : i < reads.length), schedule (k + i) = some (reads[i].length))
    {position fuel : Nat} (hfuel : input.length ≤ fuel) :
    deliver schedule source size k position fuel input = reads := by
  obtain ⟨rfl, hbounds⟩ := h
  induction reads generalizing k position fuel with
  | nil => cases fuel <;> rfl
  | cons read reads ih =>
      obtain ⟨⟨hpos, hle⟩, hrest⟩ := List.forall_mem_cons.mp hbounds
      rw [List.flatten_cons] at hfuel ⊢
      rw [List.length_append] at hfuel
      obtain ⟨fuel, rfl⟩ := Nat.exists_eq_add_one.mpr (show 0 < fuel by omega)
      have hne : read ++ reads.flatten ≠ [] :=
        List.append_ne_nil_of_left_ne_nil (List.ne_nil_of_length_pos hpos) _
      have hsize : readSize schedule source size k position = read.length :=
        readSize_of_schedule (hschedule 0 (Nat.succ_pos _)) hpos hle source position
      have hnext (i : Nat) (hi : i < reads.length) :
          schedule (k + 1 + i) = some (reads[i].length) := by
        rw [Nat.add_assoc, Nat.add_comm 1 i, hschedule (i + 1) (Nat.succ_lt_succ hi),
          List.getElem_cons_succ]
      rw [deliver_of_ne_nil _ _ _ _ _ _ hne, hsize, List.take_left, List.drop_left]
      rw [ih hnext hrest (show reads.flatten.length ≤ fuel by omega)]

variable {σ : Type}

/-- Reading the source to its end, into a buffer of `size` bytes, gives these reads. -/
def Delivers (w : World σ) (source : Source) (size : Nat) (reads : List Bytes) : Prop :=
  (readPieces source size : Console σ Delivery).run w = .ok (⟨reads, none⟩, w.drained source)

/-- The world in which the reader cuts its input as these reads do. -/
def reading (w : World σ) (reads : List Bytes) : World σ :=
  { w with schedule := fun k => reads[k]?.map List.length }

@[simp] theorem contents_reading (w : World σ) (reads : List Bytes) (source : Source) :
    (w.reading reads).contents source = w.contents source := by
  cases source <;> rfl

theorem readPieces_run {w : World σ} {source : Source} {data : Bytes}
    (h : w.contents source = .ok data) (size : Nat) :
    w.Delivers source size (deliver w.schedule source size 0 0 data.length data) := by
  rw [Delivers, readPieces, StateT.run_bind, consume_run, ok_bind, h]
  cases source <;> rfl

/-- Whatever the schedule, a source that can be read is read to its end. -/
theorem exists_delivers {w : World σ} {source : Source} {data : Bytes} {size : Nat}
    (h : w.contents source = .ok data) (hsize : 0 < size) :
    ∃ reads, Reads size data reads ∧ w.Delivers source size reads :=
  ⟨_, deliver_reads w.schedule source hsize 0 0 data.length data (Nat.le_refl _),
    readPieces_run h size⟩

/-- Each way to cut an input into reads is the way of some reader. -/
theorem delivers_reading {w : World σ} {source : Source} {data : Bytes} {size : Nat}
    {reads : List Bytes} (h : w.contents source = .ok data) (hreads : Reads size data reads) :
    (w.reading reads).Delivers source size reads := by
  have hdelivers := readPieces_run ((contents_reading w reads source).trans h) size
  have hschedule (i : Nat) (hi : i < reads.length) :
      (w.reading reads).schedule (0 + i) = some (reads[i].length) := by
    change reads[0 + i]?.map List.length = _
    rw [Nat.zero_add, List.getElem?_eq_getElem hi, Option.map_some]
  rwa [deliver_of_reads hreads source hschedule (Nat.le_refl _)] at hdelivers

end World

end Strongbox
