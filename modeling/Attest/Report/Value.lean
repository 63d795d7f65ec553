import Attest.Literal.Typing
import Attest.Report
import Attest.Row

/-!
Reports of values and of what was found about their types.
-/

namespace Attest

mutual

def Value.report : Value → Json
  | .nat n => .object [Report.member "nat" n]
  | .int i => .object [Report.member "int" i]
  | .float x => .object [Report.member "float" x]
  | .text s => .object [Report.member "text" s]
  | .bool b => .object [Report.member "bool" b]
  | .uuid u => .object [Report.member "uuid" u.hyphenated]
  | .timestamp ms => .object [Report.member "timestamp" ms]
  | .vector vs => .object [Report.member "vector" (Value.reports vs)]
  | .scores s => .object [Report.member "scores" s.values]

def Value.reports : List Value → List Json
  | [] => []
  | v :: rest => v.report :: Value.reports rest

end

namespace Report

instance : Report Value := ⟨Value.report⟩

instance : Report Row := ⟨fun r => .object (r.map fun (n, v) => member n v)⟩

instance : Report TypedValue := ⟨fun v =>
  .object [member "type" v.ty, member "value" v.value, member "display" v.render]⟩

instance : Report RefinementError := ⟨fun e => .object [member "error" e.category,
  member "message" e.message, member "suggestion" e.suggestion]⟩

instance : Report InferFault := ⟨fun e => problem "infer" e.message⟩

instance : Report Decision := ⟨fun
  | .holds e => .object [member "holds" e]
  | .fails why => .object [member "fails" why.detail, member "suggestion" why.suggestion]
  | .undecidable why => .object [member "undecidable" why.reason]⟩

instance : Report Verification := ⟨fun
  | .satisfied m e => .object [member "satisfied" m, member "evidence" e]
  | .violated why => .object [member "violated" why.detail, member "suggestion" why.suggestion]
  | .undecided why => .object [member "undecided" why.reason]⟩

instance : Report VerifiedValue := ⟨fun v => .object [member "method" v.method,
  member "evidence" v.evidence, member "typed" v.typed.render]⟩

instance : Report VerificationFailure := ⟨fun e => match e with
  | .violated _ => problem "violated" e.message
  | .undecidable _ => problem "undecidable" e.message⟩

end Report
end Attest
