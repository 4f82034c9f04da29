import Strongbox.Event
import Strongbox.Pattern.Scan
import Strongbox.Text.Encoded
import Strongbox.Text.Number
import Strongbox.Text.Pieces

/-! Which events reach the log. A filter is a list of directives; the most
specific one that concerns an event decides up to which level it passes. -/

namespace Strongbox.Log

/-- The rank of the least important level that passes; zero lets nothing through. -/
abbrev Threshold := Nat

def everything : Threshold := Level.trace.rank

/-- A level's threshold, by name in any case or by number. An empty name stands for
errors alone. -/
def threshold? (text : String) : Option Threshold :=
  match Text.parseNumber? text with
  | some n => if n ≤ everything then some n else none
  | none =>
    match String.ofList (text.toList.map Char.toLower) with
    | "" | "error" => some Level.error.rank
    | "off" => some 0
    | "warn" => some Level.warn.rank
    | "info" => some Level.info.rank
    | "debug" => some Level.debug.rank
    | "trace" => some everything
    | _ => none

structure Directive where
  /-- The directive concerns events whose origin starts with this. -/
  target : Option String := none
  /-- It concerns events that have this field. -/
  field : Option String := none
  /-- It holds only within a span, and this program opens none. -/
  confined : Bool := false
  threshold : Threshold
deriving DecidableEq, Repr

namespace Directive

/-- The threshold that stands from a place on; none there lets everything through. -/
def thresholdFrom (text : String) (place : Nat) : Option Threshold := do
  let level ← Text.slice? text place (Text.encode text).length
  if level = "" then return everything
  threshold? level

/-- The threshold behind a part in brackets. -/
def thresholdBehind (text : String) (place : Nat) : List Char → Option Threshold
  | [] => some everything
  | '=' :: _ => thresholdFrom text (place + 1)
  | _ => none

/-- Reads a field's name and whether a value is asked for, which has to be a number or a
pattern. -/
def parseField (cs : List Char) : Option (String × Bool) :=
  match Text.pieces '=' cs with
  | [name] => if name = [] then none else some (String.ofList name, false)
  | name :: value :: _ =>
    if Text.isNumber value || Pattern.isPattern value then some (String.ofList name, true) else none
  | [] => none

/-- The part in brackets, whose inside is `cs` and stands at `place`: a span's name, a
field, or both. -/
def parseSpan (text : String) (target : Option String) (place : Nat) (cs : List Char) :
    Option Directive :=
  let name := cs.takeWhile fun c => c ≠ ']' ∧ c ≠ '\x7b'
  let stop := place + Text.width name
  match cs.dropWhile fun c => c ≠ ']' ∧ c ≠ '\x7b' with
  | [] => none
  | ']' :: rest => do
    return { target, confined := true, threshold := ← thresholdBehind text (stop + 1) rest }
  | _ :: rest =>
    let fieldStop := stop + 1 + Text.width (rest.takeWhile (· ≠ '\x7d'))
    match rest.dropWhile (· ≠ '\x7d') with
    | _ :: ']' :: rest => do
      let (field, valued) ← parseField (← Text.slice? text (stop + 1) fieldStop).toList
      return {
        target
        field := some field
        confined := name ≠ [] || valued
        threshold := ← thresholdBehind text (fieldStop + 2) rest }
    | _ => none

/-- Letters, digits and the three signs that a target may begin with. -/
def mayStart (c : Char) : Bool :=
  c = '-' || c = ':' || c = '_' || Text.isAlphabetic c || Text.isNumeric c

/-- Reads `level`, `target`, `target=level` or a form with a part in brackets. Blanks
around a directive are no part of its form, but its words are cut from the text with these
blanks, at the same distance from the front. -/
def parse? (text : String) : Option Directive :=
  match Text.trimmed text.toList with
  | [] => none
  | '[' :: cs => parseSpan text none 1 cs
  | c :: cs =>
    if !mayStart c then none
    else
      let stop := Text.width ((c :: cs).takeWhile fun c => c ≠ '=' ∧ c ≠ '[')
      match (c :: cs).dropWhile fun c => c ≠ '=' ∧ c ≠ '[' with
      | [] =>
        match threshold? text with
        | some t => some { threshold := t }
        | none => some { target := some text, threshold := everything }
      | '[' :: rest => do parseSpan text (some (← Text.slice? text 0 stop)) (stop + 1) rest
      | _ => do
        return {
          target := some (← Text.slice? text 0 stop)
          threshold := ← thresholdFrom text (stop + 1) }

def concerns (d : Directive) (e : Event) : Bool :=
  !d.confined
    && (match d.target with
      | none => true
      | some target => target.toList.isPrefixOf e.origin.toList)
    && (match d.field with
      | none => true
      | some name => name = "message" || e.fields.any (·.1 = name))

/-- How specific a directive is: a longer target first, then a field, then the order
of their names. -/
def specificity (d : Directive) : List (List Nat) :=
  [match d.target with
    | none => [0]
    | some target => [1, target.utf8ByteSize],
   [if d.field.isSome then 1 else 0],
   (d.target.getD "").toList.map Char.toNat,
   (d.field.getD "").toList.map Char.toNat]

end Directive

/-- A filter. Without any directive, errors alone pass. -/
abbrev Filter := List Directive

namespace Filter

/-- The directive that decides on an event; of equally specific ones, the last. -/
def deciding? (f : Filter) (e : Event) : Option Directive :=
  (f.filter (·.concerns e)).foldl
    (fun best d =>
      match best with
      | none => some d
      | some b => if d.specificity < b.specificity then some b else some d) none

def passes (f : Filter) (e : Event) : Bool :=
  let directives := if f.isEmpty then [{ threshold := Level.error.rank }] else f
  match deciding? directives e with
  | some d => e.level.rank ≤ d.threshold
  | none => false

/-- Reads directives between commas; one that cannot be read spoils the whole. -/
def parse? (text : String) : Option Filter :=
  ((Text.pieces ',' text.toList).filter (· ≠ [])).mapM fun cs => Directive.parse? (String.ofList cs)

end Filter

/-- The level that a number of `-v` switches asks for. -/
def levelName (verbosity : Nat) : String :=
  match verbosity with
  | 0 => "warn"
  | 1 => "info"
  | 2 => "debug"
  | _ => "trace"

/-- The filter from the environment if there is one that can be read, else from the
number of `-v` switches. -/
def chooseFilter (setting : Option String) (verbosity : Nat) : Filter :=
  match setting.bind Filter.parse? with
  | some f => f
  | none => ((Filter.parse? (levelName verbosity))).getD []

end Strongbox.Log
