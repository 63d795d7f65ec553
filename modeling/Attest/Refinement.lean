import Attest.Ty
import Attest.Value

/-!
Whether a value is of a type.

`Ty.decide` is the one definition of this: every value that the compiler lets through has passed
it.  It gives no answer in two cases only: the conditions of the type are senseless, or a float
that is no number would have to be ordered against bounds.
-/

namespace Attest

inductive Violation where
  | belowNat (min max value : UInt64)
  | aboveNat (min max value : UInt64)
  | belowFloat (min max value : Double)
  | aboveFloat (min max value : Double)
  | emptyText
  | score (name : String) (value : UInt64)
  | size (found : Nat) (expected : UInt64)
  | element (index : Nat) (v : Violation)
  | shape (expected : Ty) (found : Value)
deriving Repr

/-- Why it cannot be said whether a value is of a type. -/
inductive Doubt where
  | malformed (fault : TyFault)
  | unordered
  | noPosition
  | emptyNat (min max : UInt64)
  | emptyFloat (min max : Double)
  | unbounded
  | outside (ty : Ty) (value : Value)
  | disabled
  | element (index : Nat) (d : Doubt)
deriving Repr

/-- The answer to whether a value is of a type.  Evidence says what was looked at. -/
inductive Decision where
  | holds (evidence : String)
  | fails (why : Violation)
  | undecidable (why : Doubt)
deriving Repr

namespace Violation

def tooSmall (value min : String) : String := "value " ++ value ++ " is below min " ++ min

def tooLarge (value max : String) : String := "value " ++ value ++ " exceeds max " ++ max

def detail : Violation → String
  | belowNat lo _ v => tooSmall (toString v) (toString lo)
  | aboveNat _ hi v => tooLarge (toString v) (toString hi)
  | belowFloat lo _ v => tooSmall v.literal lo.literal
  | aboveFloat _ hi v => tooLarge v.literal hi.literal
  | emptyText => "string must not be empty"
  | score n v => "score '" ++ n ++ s!"' = {v} exceeds max {Scores.best}"
  | size found expected => s!"vector has {found} elements, expected {expected}"
  | element i v => s!"element {i}: " ++ v.detail
  | shape ty v => "expected " ++ ty.render ++ ", found " ++ v.kindName ++ " " ++ v.render

def within (min max : String) : String := "value must be within [" ++ min ++ "," ++ max ++ "]"

def suggestion : Violation → Option String
  | belowNat lo hi _ => some (within (toString lo) (toString hi))
  | aboveNat lo hi _ => some (within (toString lo) (toString hi))
  | belowFloat lo hi _ => some (within lo.literal hi.literal)
  | aboveFloat lo hi _ => some (within lo.literal hi.literal)
  | emptyText => some "provide at least one character"
  | score _ _ => some s!"each prompt score must be within [0,{Scores.best}]"
  | size _ expected => some s!"provide exactly {expected} elements"
  | element _ v => v.suggestion
  | shape _ _ => none

end Violation

namespace Doubt

def reason : Doubt → String
  | malformed f => f.message
  | unordered => "NaN cannot be ordered against refinement bounds"
  | noPosition => "NaN has no position in an interval"
  | emptyNat lo hi => s!"empty refinement interval [{lo}, {hi}]"
  | emptyFloat lo hi => "empty refinement interval [" ++ lo.literal ++ ", " ++ hi.literal ++ "]"
  | unbounded => "refinement bounds are not finite"
  | outside ty v =>
    v.kindName ++ " " ++ v.render ++ " is outside interval reasoning for " ++ ty.render
  | disabled => "static verification disabled"
  | element i d => s!"element {i}: " ++ d.reason

end Doubt

namespace Decision

def isHolds : Decision → Bool
  | holds _ => true
  | _ => false

/-- Decide every item of a vector, and give the evidence for all or the first that fails. -/
def items (f : Value → Decision) (index : Nat) : List Value → Except Decision (List String)
  | [] => .ok []
  | v :: rest =>
    match f v with
    | .fails why => .error (.fails (.element index why))
    | .undecidable why => .error (.undecidable (.element index why))
    | .holds e => match items f (index + 1) rest with
      | .ok es => .ok (e :: es)
      | .error d => .error d

end Decision

namespace Ty

def between (min value max : String) : String := min ++ " <= " ++ value ++ " <= " ++ max

def decideNat (min max v : UInt64) : Decision :=
  if v < min then .fails (.belowNat min max v)
  else if max < v then .fails (.aboveNat min max v)
  else .holds (between (toString min) (toString v) (toString max))

def decideFloat (min max v : Double) : Decision :=
  if v.isNaN then .undecidable .unordered
  else if v.lt min then .fails (.belowFloat min max v)
  else if max.lt v then .fails (.aboveFloat min max v)
  else .holds (between min.literal v.literal max.literal)

def decideScores (s : Scores) : Decision :=
  match s.entries.find? fun e => Scores.best < e.2 with
  | some (n, v) => .fails (.score n v)
  | none => .holds s!"all {Scores.names.length} scores within [0,{Scores.best}]"

def decide (ty : Ty) (value : Value) : Decision :=
  match ty.fault? with
  | some f => .undecidable (.malformed f)
  | none => match ty, value with
    | nat, .nat _ => .holds "structural"
    | int, .int _ => .holds "structural"
    | string, .text _ => .holds "structural"
    | bool, .bool _ => .holds "structural"
    | uuid, .uuid _ => .holds "structural"
    | timestamp, .timestamp _ => .holds "structural"
    | float, .float _ => .holds "structural"
    | boundedNat lo hi, .nat v => decideNat lo hi v
    | boundedFloat lo hi, .float v => decideFloat lo hi v
    | confidence, .float v => decideFloat Double.zero Double.one v
    | nonEmptyString, .text s =>
      if s.isEmpty then .fails .emptyText else .holds s!"len = {s.length} > 0"
    | promptScores, .scores s => decideScores s
    | vector element size, .vector items =>
      if items.length != size.toNat then .fails (.size items.length size)
      else match Decision.items element.decide 0 items with
        | .error d => d
        | .ok es =>
          if element.isRefined then .holds (s!"len = {size}; [" ++ "; ".intercalate es ++ "]")
          else .holds s!"len = {size}"
    | ty, value => .fails (.shape ty value)

end Ty
end Attest
