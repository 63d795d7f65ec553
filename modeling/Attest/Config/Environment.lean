import Attest.Config
import Attest.Sorting
import Attest.Text.Blank

/-!
Settings from variables of the environment, named `PROVQL__SECTION__FIELD`.
-/

namespace Attest

namespace NumberFault

/-- The number that digits make with those before them, up to the largest word. -/
def digits (n : Nat) : List Char → Except NumberFault Nat
  | [] => .ok n
  | c :: rest =>
    if !c.isDigit then .error .invalidDigit
    else
      let n := n * 10 + (c.toNat - '0'.toNat)
      if n < 0x10000000000000000 then digits n rest else .error .tooLarge

/-- The number that a text with or without a plus sign makes. -/
def parse (s : String) : Except NumberFault Nat :=
  match s.toList with
  | [] => .error .empty
  | ['+'] => .error .invalidDigit
  | '+' :: ds => digits 0 ds
  | ds => digits 0 ds

end NumberFault

namespace Setting

def parse (s : Setting) (text : String) : Except ValueFault SettingValue :=
  match s with
  | .mode => match VerificationMode.ofName? text with
    | some m => .ok (.mode m)
    | none => .error (.mode text)
  | .format => match Format.ofName? text with
    | some f => .ok (.format f)
    | none => .error (.format text)
  | _ => match NumberFault.parse text with
    | .ok n => .ok (.number n)
    | .error e => .error (.number e)

end Setting

namespace Config

/-- How the names of variables that are settings begin. -/
def environmentMark : String := "PROVQL__"

/-- Split a text at the first double underscore; without one, all of it stands before. -/
def splitPath : List Char → List Char × List Char
  | '_' :: '_' :: rest => ([], rest)
  | c :: rest =>
    let (before, after) := splitPath rest
    (c :: before, after)
  | [] => ([], [])

/-- The override that a variable says, from its name without the mark. -/
def overrideOf (key value : String) : Except ConfigError Override :=
  let (home, field) := splitPath (Text.lower key).toList
  let (home, field) := (String.ofList home, String.ofList field)
  match Section.ofName? home with
  | none => .error (.unknownSection home)
  | some h => match h.settings.find? (·.field == field) with
    | none => .error (.unknownField field h)
    | some s => match s.parse value with
      | .ok v => .ok ⟨s, v⟩
      | .error why => .error (.invalidValue s value why)

/-- The variables that are settings, with their names without the mark, in order. -/
def relevant (vars : List (String × String)) : List (String × String) :=
  Sorting.sort (fun a b => a.1 < b.1 || (a.1 == b.1 && a.2 < b.2))
    (vars.filter fun v => environmentMark.toList.isPrefixOf v.1.toList)

def applyVariable (c : Config) (v : String × String) : Except ConfigError Config := do
  let key := String.ofList (v.1.toList.drop environmentMark.length)
  let o ← overrideOf key (Text.trim v.2)
  return c.override (.env v.1) o

/-- Override by all variables that are settings; the others are ignored. -/
def applyEnvironment (c : Config) (vars : List (String × String)) :
    Except ConfigError Config :=
  (relevant vars).foldlM applyVariable c

end Config
end Attest
