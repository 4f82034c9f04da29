import Strongbox.Proofs.Command.Exchange
import Strongbox.Proofs.Host.Reads
import Strongbox.Proofs.Provider.Hashing

/-! # One digest for every way to read

The command that prints a digest reads its input whole, or piece by piece into one buffer. Each
piece is hashed as far as it was read, so the line it prints depends neither on the size of the
buffer nor on where the reads end, nor on the provider. -/

namespace Strongbox

variable {σ : Type}

namespace Command

variable {P : Provider σ}

/-! ## One buffer for all reads -/

/-- Feeds reads that share a buffer. A read goes to the front of the buffer, behind which the
bytes of earlier reads are still there. -/
def feedThrough {n : Nat} {m : Type → Type} [Monad m] [Host σ m] (buffer : ByteVec n)
    (stream : Guard.HashStream P) : List Bytes → ExceptT Trouble m (Guard.HashStream P)
  | [] => return stream
  | read :: reads => do
    let buffer := buffer.overwrite 0 read
    let (result, stream) ← guarded (stream.update (buffer.toList.take read.length))
    match result with
    | .ok () => feedThrough buffer stream reads
    | .error e => throw (.hashing e)

/-- Nothing is hashed that an earlier read has left in the buffer, by induction on the reads. -/
theorem feedThrough_eq_feed {n : Nat} {m : Type → Type} [Monad m] [Host σ m] (buffer : ByteVec n)
    (stream : Guard.HashStream P) {reads : List Bytes} (h : ∀ read ∈ reads, read.length ≤ n) :
    (feedThrough buffer stream reads : ExceptT Trouble m _) = feed stream reads := by
  induction reads generalizing buffer stream with
  | nil => rfl
  | cons read reads ih =>
      obtain ⟨hread, hreads⟩ := List.forall_mem_cons.mp h
      have hfront : (buffer.overwrite 0 read).toList.take read.length = read := by
        rw [ByteVec.toList_overwrite_zero buffer hread, List.take_left]
      have hrest (stream : Guard.HashStream P) := ih (buffer.overwrite 0 read) stream hreads
      simp only [feedThrough, hfront, hrest]
      rfl

/-! ## Every provider -/

theorem exec_feed_cons {stream : Guard.HashStream P} {piece : Bytes} {w : World σ}
    {buf : ByteVec stream.state.length} {q : σ}
    (h : (P.hashUpdate piece (.ofList stream.state)).run w.provider = .ok (⟨.ok (), buf⟩, q))
    (pieces : List Bytes) :
    exec (feed stream (piece :: pieces)) w =
      exec (feed (stream.stored buf) pieces) (w.after ⟨q, [.hashing P.name piece.length]⟩) := by
  have hupdate : exec (guarded (stream.update piece)) w =
      .ok (.ok (.ok (), stream.stored buf), w.after ⟨q, [.hashing P.name piece.length]⟩) := by
    rw [exec_guarded, Guard.HashStream.update_run]
    change Except.map _ (_ <$> (P.hashUpdate piece (.ofList stream.state)).run w.provider) = _
    rw [h]
    rfl
  rw [feed, exec_bind_of_ok hupdate]

section Hashes

variable {ready : σ → Prop} {fits : Nat → Prop} {hash : Bytes → Digest}
  {Holds : Bytes → Bytes → Prop} {w : World σ} {data : Bytes}

/-- Feeding takes in all pieces, by induction on them; the state holds the bytes before. -/
theorem exec_feed (h : Guard.Hashes P ready fits hash Holds) (pieces : List Bytes)
    {stream : Guard.HashStream P} {message : Bytes} (hready : ready w.provider)
    (hholds : Holds message stream.state) (hfits : fits (message ++ pieces.flatten).length) :
    ∃ next w', exec (feed stream pieces) w = .ok (.ok next, w') ∧ ready w'.provider ∧
      Holds (message ++ pieces.flatten) next.state := by
  induction pieces generalizing stream w message with
  | nil =>
      refine ⟨stream, w, rfl, hready, ?_⟩
      rwa [List.flatten_nil, List.append_nil]
  | cons piece pieces ih =>
      rw [List.flatten_cons, ← List.append_assoc] at hfits ⊢
      obtain ⟨buf, q, hupdate, hq, hheld⟩ :=
        @h.update _ _ (.ofList stream.state) _ piece hready hholds (h.fits_front hfits)
      rw [exec_feed_cons hupdate]
      exact @ih (w.after ⟨q, [.hashing P.name piece.length]⟩) (stream.stored buf) _ hq hheld hfits

theorem exec_openSource {path : Path} (h : w.files.read path = .ok data) :
    exec (require (.openFile path) (Host.openSource (.file path))) w = .ok (.ok (), w) := by
  rw [exec_require]
  change Except.ok (((w.files.find path).map fun _ => ()).mapError (Trouble.openFile path), w) = _
  cases hfind : w.files.find path with
  | error fault =>
      rw [Tree.read, hfind] at h
      cases h
  | ok entry => rfl

theorem exec_start (h : Guard.Hashes P ready fits hash Holds)
    (hstate : P.hashStateBytes ≤ Size.hashState) (hready : ready w.provider) :
    ∃ stream left s,
      exec (guarded (Guard.HashStream.start P Guard.StateBuffer.fresh.toList)) w =
        .ok (.ok ⟨.ok stream, left⟩, w.after s) ∧ ready s.provider ∧ Holds [] stream.state := by
  have hlong : P.hashStateBytes ≤ Guard.StateBuffer.fresh.toList.length := by
    rwa [ByteVec.length_toList]
  obtain ⟨buf, q, hinit, hq, hheld⟩ := h.init (.ofList Guard.StateBuffer.fresh.toList) hready hlong
  refine ⟨(⟨_, hlong⟩ : Guard.HashStream P).stored buf, buf.toList,
    ⟨q, [.hashStarted P.name]⟩, ?_, hq, hheld⟩
  rw [exec_guarded, Guard.HashStream.start_run P _ hlong]
  change Except.map _ (_ <$> (P.hashInit _).run w.provider) = _
  rw [hinit]
  rfl

theorem exec_finish (h : Guard.Hashes P ready fits hash Holds) {stream : Guard.HashStream P}
    (hready : ready w.provider) (hholds : Holds data stream.state) :
    ∃ left s, exec (guarded stream.finish) w = .ok (.ok ⟨.ok (hash data), left⟩, w.after s) := by
  obtain ⟨buf, q, hfinal, -⟩ := @h.final _ _ (.ofList stream.state) _ hready hholds
  refine ⟨Bytes.zeros stream.state.length, ⟨q, []⟩, ?_⟩
  rw [exec_guarded, Guard.HashStream.finish_run]
  change Except.map _ (_ <$> (P.hashFinal _).run w.provider) = _
  rw [hfinal]
  rfl

theorem exec_hashPieces (h : Guard.Hashes P ready fits hash Holds)
    (hstate : P.hashStateBytes ≤ Size.hashState) {source : Source} {size : Nat}
    (hready : ready w.provider) (hinput : w.contents source = .ok data) (hsize : 0 < size)
    (hmax : size ≤ maxBuffer) (hfits : fits data.length) :
    ∃ w', w.Withheld w' ∧ exec (hashPieces P source size) w = .ok (.ok (hash data), w') := by
  obtain ⟨stream, left, s, hstart, hs, hheld⟩ := exec_start h hstate hready
  let reads := World.deliver w.schedule source size 0 0 data.length data
  have hreads : reads.flatten = data :=
    World.flatten_deliver w.schedule source hsize 0 0 data.length data (Nat.le_refl _)
  have hdelivered : exec (ExceptT.lift (Host.readPieces source size)) (w.after s) =
      .ok (.ok ⟨reads, none⟩, (w.after s).drained source) := by
    rw [exec_lift]
    change Except.map _ ((World.readPieces source size).run (w.after s)) = _
    rw [World.readPieces_run ((contents_after w s source).trans hinput) size]
    rfl
  have hready' : ready ((w.after s).drained source).provider := by
    rwa [World.provider_drained]
  obtain ⟨fed, w₁, hfeed, hready₁, hall⟩ :=
    exec_feed h reads hready' hheld (by rwa [List.nil_append, hreads])
  rw [List.nil_append, hreads] at hall
  obtain ⟨left', s', hfinish⟩ := exec_finish h hready₁ hall
  have hexec : exec (hashPieces P source size) w = .ok (.ok (hash data), w₁.after s') := by
    unfold hashPieces
    extract_lets opened
    have hopened : exec (opened ()) w = .ok (.ok (hash data), w₁.after s') := by
      apply (exec_bind_of_ok hstart).trans
      dsimp -zeta only
      extract_lets started
      rw [if_neg (Nat.not_lt.mpr hmax)]
      apply (exec_bind_of_ok hdelivered).trans
      apply (exec_bind_of_ok hfeed).trans
      exact exec_bind_of_ok hfinish
    cases source with
    | standard => exact hopened
    | file path => exact (exec_bind_of_ok (exec_openSource hinput)).trans hopened
  have hquiet := (quiet_hashPieces P source size w).outcome.of_ok hexec
  exact ⟨_, hquiet.1, hexec⟩

/-- The line that shows a digest. -/
def digestLine (digest : Digest) : Bytes := Text.encode (Hex.encode digest.toList ++ "\n")

/-- A command that comes to a digest, whichever way it reads, delivers the line. -/
theorem hash_yields {input : Path} {chunkSize : Option Nat} {digest : Digest}
    (h : ∀ w₁ : World σ, ready w₁.provider → w₁.contents input.source = .ok data →
      ∃ w₂, w₁.Withheld w₂ ∧ exec (hashInput P input chunkSize) w₁ =
        exec (printLine (Hex.encode digest.toList)) w₂)
    (hready : ready w.provider) (hinput : w.contents input.source = .ok data) :
    Yields P (.hash input chunkSize) ⟨"-"⟩ w (digestLine digest) := by
  let named := w.after ⟨w.provider, [.providerSelected P.name]⟩
  obtain ⟨w₂, hw₂, hexec⟩ := h named hready ((contents_after w _ _).trans hinput)
  have hrun : exec (Command.run P (.hash input chunkSize)) w =
      exec (printLine (Hex.encode digest.toList)) w₂ :=
    (exec_bind_of_ok (exec_emit _ w)).trans hexec
  have hwithheld := (World.Withheld.after w _).trans hw₂
  refine Yields.of_exec hrun (Delivered.of_withheld hwithheld ?_)
  rw [Delivered, source_dash]
  rfl

theorem hash_yields_whole (h : Guard.Hashes P ready fits hash Holds) {input : Path}
    (hready : ready w.provider) (hinput : w.contents input.source = .ok data) :
    Yields P (.hash input none) ⟨"-"⟩ w (digestLine (hash data)) := by
  refine hash_yields (fun w₁ hready₁ hinput₁ => ?_) hready hinput
  have hready₂ : ready (w₁.drained input.source).session.provider := by
    rwa [World.session, World.provider_drained]
  obtain ⟨w₂, hw₂, hdigest⟩ := exec_attempt_of_ends (h.digest_ends hready₂ data) .hashing
  refine ⟨w₂, (World.Withheld.drained w₁ input.source).trans hw₂, ?_⟩
  exact (exec_bind_of_ok (exec_readInput_of_contents hinput₁)).trans (exec_bind_of_ok hdigest)

theorem hash_yields_pieces (h : Guard.Hashes P ready fits hash Holds)
    (hstate : P.hashStateBytes ≤ Size.hashState) {input : Path} {size : Nat}
    (hready : ready w.provider) (hinput : w.contents input.source = .ok data) (hsize : 0 < size)
    (hmax : size ≤ maxBuffer) (hfits : fits data.length) :
    Yields P (.hash input (some size)) ⟨"-"⟩ w (digestLine (hash data)) := by
  refine hash_yields (fun w₁ hready₁ hinput₁ => ?_) hready hinput
  obtain ⟨size, rfl⟩ := Nat.exists_eq_add_one.mpr hsize
  obtain ⟨w₂, hw₂, hexec⟩ := exec_hashPieces h hstate hready₁ hinput₁ hsize hmax hfits
  exact ⟨w₂, hw₂, exec_bind_of_ok hexec⟩

end Hashes

/-! ## The program -/

/-- The line is the digest of the standard in lower-case digits, with a newline behind it. -/
def ShowsDigest (data line : Bytes) : Prop :=
  ∃ digest text, Sha512.StandardDigest Sha512.compress data digest ∧
    KeyText.Shows text digest.toList ∧ line = text ++ [10]

theorem showsDigest_digestLine (data : Bytes) :
    ShowsDigest data (digestLine (Sha512.digest Sha512.compress data)) := by
  refine ⟨_, _, Sha512.standardDigest_iff.mpr rfl, KeyText.shows_encode _, ?_⟩
  rw [digestLine, Text.encode, String.toList_append, List.flatMap_append]
  rfl

/-- The line shows the digest of the data, and is the same however the input is read. -/
structure PrintsEachWay (P : Provider σ) (input : Path) (size : Nat) (data line : Bytes)
    (w : World σ) : Prop where
  shown : ShowsDigest data line
  /-- The input is read whole. -/
  whole : Yields P (.hash input none) ⟨"-"⟩ w line
  /-- The reader of this world cuts the input into reads, in its own way. -/
  pieces : ∃ reads, Reads size data reads ∧ w.Delivers input.source size reads ∧
    Yields P (.hash input (some size)) ⟨"-"⟩ w line
  /-- A reader cuts the input in any way. -/
  cut : ∀ reads, Reads size data reads → (w.reading reads).Delivers input.source size reads ∧
    Yields P (.hash input (some size)) ⟨"-"⟩ (w.reading reads) line
  /-- The reads may share a buffer, whatever it holds at first. -/
  shared : ∀ reads, Reads size data reads →
    ∀ (buffer : ByteVec size) (stream : Guard.HashStream P),
      (feedThrough buffer stream reads : ExceptT Trouble (Console σ) _) = feed stream reads

theorem printsEachWay_of_hashes {ready : σ → Prop} {fits : Nat → Prop} {hash : Bytes → Digest}
    {Holds : Bytes → Bytes → Prop} (h : Guard.Hashes P ready fits hash Holds)
    (hstate : P.hashStateBytes ≤ Size.hashState) {input : Path} {size : Nat} {data : Bytes}
    {w : World σ} (hready : ready w.provider) (hinput : w.contents input.source = .ok data)
    (hsize : 0 < size) (hmax : size ≤ maxBuffer) (hfits : fits data.length)
    (hshown : ShowsDigest data (digestLine (hash data))) :
    PrintsEachWay P input size data (digestLine (hash data)) w where
  shown := hshown
  whole := hash_yields_whole h hready hinput
  pieces := by
    obtain ⟨reads, hreads, hdelivers⟩ := World.exists_delivers hinput hsize
    exact ⟨reads, hreads, hdelivers,
      hash_yields_pieces h hstate hready hinput hsize hmax hfits⟩
  cut reads hreads := by
    have hinput' := (World.contents_reading w reads input.source).trans hinput
    exact ⟨World.delivers_reading hinput hreads,
      hash_yields_pieces h hstate hready hinput' hsize hmax hfits⟩
  shared reads hreads buffer stream :=
    feedThrough_eq_feed buffer stream fun read hread => (hreads.bounds read hread).2

end Command

open Command in
/-- Both providers print the SHA-512 digest of the input in lower-case digits, whether it is read
whole or in pieces of any size. The count of bytes that one of them keeps must not overflow. -/
theorem digest_printed_each_way (choice : ProviderChoice) {input : Path} {size : Nat}
    {data : Bytes} {w : World Entropy} (hinput : w.contents input.source = .ok data)
    (hsize : 0 < size) (hmax : size ≤ maxBuffer)
    (hcount : choice = .dalek → data.length < 2 ^ 128) :
    PrintsEachWay choice.provider input size data
      (digestLine (Sha512.digest Sha512.compress data)) w := by
  cases choice with
  | sodium =>
      exact printsEachWay_of_hashes (Joined.hashes (.standard .reduced)) (Nat.le_refl _) trivial
        hinput hsize hmax trivial (showsDigest_digestLine data)
  | dalek =>
      exact printsEachWay_of_hashes (Split.hashes (.standard .any)) (Nat.le_refl _) trivial
        hinput hsize hmax (hcount rfl) (showsDigest_digestLine data)

open Command in
/-- The letters `abc` on standard input, in two reads of a buffer of two bytes. -/
theorem three_bytes_printed_each_way :
    let typed : World Entropy := { provider := ⟨fun _ => 0, 0⟩, input := [97, 98, 99] }
    let line : Bytes := ("ddaf35a193617abacc417349ae20413112e6fa4e89a97ea20a9eeee64b55d39a" ++
      "2192992a274fc1a836ba3c23a3feebbd454d4423643ce80e2a9ac94fa54ca49f\n").toUTF8.toList
    PrintsEachWay ProviderChoice.sodium.provider ⟨"-"⟩ 2 [97, 98, 99] line typed ∧
      PrintsEachWay ProviderChoice.dalek.provider ⟨"-"⟩ 2 [97, 98, 99] line typed ∧
      Yields ProviderChoice.dalek.provider (.hash ⟨"-"⟩ (some 2)) ⟨"-"⟩
        (typed.reading [[97], [98, 99]]) line := by
  intro typed line
  have hinput : typed.contents (Path.source ⟨"-"⟩) = .ok [97, 98, 99] := by
    rw [source_dash]
    rfl
  have hline : digestLine (Sha512.digest Sha512.compress [97, 98, 99]) = line := by decide +kernel
  have hprints (choice : ProviderChoice) :
      PrintsEachWay choice.provider ⟨"-"⟩ 2 [97, 98, 99] line typed := by
    rw [← hline]
    exact digest_printed_each_way choice hinput (by decide) (by decide) fun _ => by decide
  have hreads : Reads 2 [97, 98, 99] [[97], [98, 99]] := ⟨rfl, by decide⟩
  exact ⟨hprints .sodium, hprints .dalek, ((hprints .dalek).cut _ hreads).2⟩

end Strongbox
