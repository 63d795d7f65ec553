import Attest.Text.Distance
import Attest.TypeError
import Attest.TypedStatement

/-!
The checks of a statement against a schema.

Columns are resolved, constants are folded and given the types of the columns they stand beside,
and every value that is assigned passes the verifier.
-/

namespace Attest

namespace TypedExpr

/-- The comparison with its sides exchanged. -/
def flip? : BinaryOp → Option BinaryOp
  | .eq => some .eq
  | .ne => some .ne
  | .lt => some .gt
  | .gt => some .lt
  | .le => some .ge
  | .ge => some .le
  | _ => none

def comparison? : BinaryOp → Option Comparison
  | .eq => some .eq
  | .lt => some .lt
  | .le => some .le
  | .gt => some .gt
  | .ge => some .ge
  | _ => none

/-- Whether no value of a bounded type compares in this way with a constant. -/
def neverHolds (c : Comparison) : Ty → Value → Bool
  | .boundedNat lo hi, .nat v =>
    ((Interval.closed lo hi).intersect (Interval.ofComparison c v)).isEmpty
  | .boundedFloat lo hi, .float v =>
    ((Interval.closed lo hi).intersect (Interval.ofComparison c v)).isEmpty
  | .confidence, .float v =>
    ((Interval.closed Double.zero Double.one).intersect (Interval.ofComparison c v)).isEmpty
  | _, _ => false

def neverHoldsText (c : ColumnRef) (op : BinaryOp) (v : Value) : String :=
  "predicate '" ++ c.name ++ " " ++ op.name ++ " " ++ v.render ++ "' can never hold for "
    ++ c.ty.render ++ " column '" ++ c.name ++ "'"

/-- A column, a comparison and a constant, if that is what an operation is. -/
def columnTest? (op : BinaryOp) : TypedExpr → TypedExpr → Option (ColumnRef × BinaryOp × Value)
  | column c, literal v _ => some (c, op, v)
  | literal v _, column c => (flip? op).map fun op => (c, op, v)
  | _, _ => none

def warning? (op : BinaryOp) (l r : TypedExpr) : Option String := do
  let (c, op, v) ← columnTest? op l r
  let comparison ← comparison? op
  if neverHolds comparison c.ty v then some (neverHoldsText c op v) else none

/-- The warnings about an expression, operands first. -/
def warnings : TypedExpr → List String
  | column _ => []
  | literal _ _ => []
  | unary _ e _ => e.warnings
  | binary op l r _ => l.warnings ++ r.warnings ++ (warning? op l r).toList
  | isNull e _ => e.warnings

end TypedExpr

namespace Checker

def resolve (s : Schema) (id : Ident) : Except TypeError ColumnRef :=
  match s.column? id.name with
  | some c => .ok ⟨c.name, c.ty⟩
  | none =>
    let near := Text.closest? id.name (s.columns.map (·.name))
    .error ⟨id.position, .unknownColumn id.name s.name near⟩

def allColumns (s : Schema) : List ColumnRef := s.columns.map fun c => ⟨c.name, c.ty⟩

/-- Whether an expression is arithmetic or concatenation of constants, which is folded. -/
def isConstant (e : Expr) : Bool :=
  let foldable := match e with
    | .unary op _ _ => op != .not
    | .binary op _ _ _ => op.isArithmetic || op == .concat
    | _ => false
  foldable && e.columns.isEmpty

def isLiteralLike (e : Expr) : Bool :=
  match e with
  | .literal _ _ => true
  | e => isConstant e

/-- A literal by its own type. -/
def ownLiteral (l : Literal) (p : Position) : Except TypeError TypedExpr :=
  match l.infer with
  | .error why => .error ⟨p, .untyped l why⟩
  | .ok ty => match l.coerce ty with
    | .ok v => .ok (.literal v ty)
    | .error _ => .error ⟨p, .unfit l ty⟩

/-- A literal, of the type that its surroundings ask for if its form suits that. -/
def typeLiteral (l : Literal) (p : Position) (hint : Option Ty) : Except TypeError TypedExpr :=
  if l.isNull then .error ⟨p, .nullCompared⟩
  else match hint with
    | none => ownLiteral l p
    | some target => match l.coerce target with
      | .ok v => .ok (.literal v target)
      | .error (.invalid why) => .error ⟨p, .badOperand target l why⟩
      | .error .notAssignable => ownLiteral l p

def typeConstant (e : Expr) (hint : Option Ty) : Except TypeError TypedExpr :=
  match e.fold with
  | .ok l => typeLiteral l e.position hint
  | .error why => .error ⟨e.position, .badConstant e why⟩

def requireBool (e : TypedExpr) (p : Position) (op : String) : Except TypeError Unit :=
  if e.ty.base == .bool then .ok () else .error ⟨p, .notLogical op e.ty⟩

/-- The type of a number with a sign: a natural number with a minus is an integer. -/
def signedType? (op : UnaryOp) (base : Ty) : Option Ty :=
  match base with
  | .nat => some (if op == .neg then .int else .nat)
  | .int => some .int
  | .float => some .float
  | _ => none

def operationType (op : BinaryOp) (base : Ty) (p : Position) : Except TypeError Ty :=
  if op.isComparison then
    if op.isOrdering && !base.isOrderable then .error ⟨p, .unordered op base⟩ else .ok .bool
  else if op == .concat then
    if base == .string then .ok .string else .error ⟨p, .notText base⟩
  else if base.isNumeric then .ok base
  else .error ⟨p, .notNumbers op base⟩

def operation (op : BinaryOp) (l r : TypedExpr) (p : Position) : Except TypeError TypedExpr := do
  if l.ty.base != r.ty.base then .error ⟨p, .mixed op l.ty.base r.ty.base⟩
  else return .binary op l r (← operationType op l.ty.base p)

/-- Give types to an expression.  A hint is the type that a constant should take. -/
def typeExpr (s : Schema) (hint : Option Ty) (e : Expr) : Except TypeError TypedExpr :=
  if isConstant e then typeConstant e hint
  else match e with
    | .column id => TypedExpr.column <$> resolve s id
    | .literal v p => typeLiteral v p hint
    | .isNull e negated _ => do return .isNull (← typeExpr s none e) negated
    | .unary op e p => do
      if op == .not then
        let e ← typeExpr s (some .bool) e
        requireBool e p "NOT"
        return .unary .not e .bool
      else
        let e ← typeExpr s none e
        match signedType? op e.ty.base with
        | some ty => return .unary op e ty
        | none => .error ⟨p, .notSigned op e.ty.base⟩
    | .binary op l r p => do
      if op.isLogical then
        let l ← typeExpr s (some .bool) l
        let r ← typeExpr s (some .bool) r
        requireBool l p op.name
        requireBool r p op.name
        return .binary op l r .bool
      else if isLiteralLike l && !isLiteralLike r then
        -- a constant on the left waits for the type of the right side
        let r ← typeExpr s none r
        let l ← typeExpr s (some r.ty.base) l
        operation op l r p
      else
        let l ← typeExpr s none l
        let r ← typeExpr s (some l.ty.base) r
        operation op l r p

def typePredicate (s : Schema) (e : Expr) : Except TypeError TypedExpr := do
  let t ← typeExpr s none e
  if t.ty == .bool then return t else .error ⟨e.position, .notBool t.ty⟩

def coercionFault (column : String) (target : Ty) (l : Literal) : CoercionError → TypeFault
  | .invalid why => .badContent column target l why
  | .notAssignable =>
    if l.isNull then .nullAssigned column target else .notAssignable column target l

/-- How the type of an assignment is found, and that type. -/
def targetOf (column : ColumnRef) (a : Assignment) : Except TypeError (Dialect × Ty) :=
  match a.declared with
  | none => .ok (.inferred, column.ty)
  | some t =>
    if t.same column.ty then .ok (.explicit, t)
    else .error ⟨a.value.position, .misdeclared column.name column.ty t⟩

def failureError (column : String) (target : Ty) (value : Value) (p : Position) :
    VerificationFailure → CheckError
  | .violated why => .type ⟨p, .violated column target value why⟩
  | .undecidable why => .proof ⟨column, target, why, p⟩

/-- The value of an assignment before it is verified, with the way its type was found and the
type. -/
def assignedValue (s : Schema) (a : Assignment) :
    Except TypeError (ColumnRef × Dialect × Ty × Value) := do
  let column ← resolve s a.column
  let p := a.value.position
  let l ← match a.value.fold with
    | .ok l => pure l
    | .error why => .error ⟨p, .notConstant column.name column.ty a.value why⟩
  let (dialect, target) ← targetOf column a
  match l.coerce target with
  | .ok v => return (column, dialect, target, v)
  | .error e => .error ⟨p, coercionFault column.name target l e⟩

def assignment (s : Schema) (v : Verifier) (a : Assignment) : Except CheckError TypedAssignment :=
  match assignedValue s a with
  | .error e => .error (.type e)
  | .ok (column, dialect, target, value) =>
    match v.check target value with
    | .ok w => .ok ⟨column.name, w.typed, dialect, w.method, w.evidence, a.value.position⟩
    | .error e => .error (failureError column.name target value a.value.position e)

/-- Check assignments, none of which may repeat a column. -/
def assignments (s : Schema) (v : Verifier) (seen : List String) :
    List Assignment → Except CheckError (List TypedAssignment)
  | [] => .ok []
  | a :: rest => do
    if seen.contains a.column.name then
      .error (.type ⟨a.column.position, .assignedTwice a.column.name⟩)
    else
      let t ← assignment s v a
      return t :: (← assignments s v (a.column.name :: seen) rest)

def orderKey (s : Schema) (k : OrderKey) : Except TypeError TypedOrderKey := do
  let c ← resolve s k.column
  if c.ty.isOrderable then return ⟨c, k.direction⟩
  else .error ⟨k.column.position, .unorderedColumn c.name c.ty⟩

def projection (s : Schema) : Projection → Except TypeError (List ColumnRef)
  | .all => .ok (allColumns s)
  | .columns ids => ids.mapM (resolve s)

def lift {α : Type} : Except TypeError α → Except CheckError α
  | .ok a => .ok a
  | .error e => .error (.type e)

def predicate (s : Schema) : Option Expr → Except CheckError (Option TypedExpr)
  | none => .ok none
  | some e => lift (some <$> typePredicate s e)

def predicateWarnings (p : Option TypedExpr) : List String := (p.map TypedExpr.warnings).getD []

def normalFormWarnings (s : Schema) (target : Option NormalForm) : List String :=
  match target, s.normalForm with
  | some t, some f =>
    if t == f then ["table '" ++ s.name ++ "' is already in " ++ f.name] else []
  | _, _ => []

/-- Check a statement that is about the table of the schema. -/
def body (s : Schema) (v : Verifier) : Statement → Except CheckError TypedStatement
  | .insert table as clause => do
    let as ← assignments s v [] as
    return { kind := .insert, table := table.name, assignments := as, provenance := clause }
  | .update table as p clause => do
    let as ← assignments s v [] as
    let p ← predicate s p
    return { kind := .update, table := table.name, assignments := as, predicate := p,
             provenance := clause, warnings := predicateWarnings p }
  | .delete table p clause => do
    let p ← lift (typePredicate s p)
    return { kind := .delete, table := table.name, projection := allColumns s, predicate := some p,
             provenance := clause, warnings := p.warnings }
  | .select table proj p keys limit => do
    let proj ← lift (projection s proj)
    let p ← predicate s p
    let keys ← lift (keys.mapM (orderKey s))
    return { kind := .select, table := table.name, projection := proj, predicate := p,
             orderBy := keys, limit := limit, warnings := predicateWarnings p }
  | .normalize table target clause =>
    .ok { kind := .normalize, table := table.name, normalForm := target, provenance := clause,
          warnings := normalFormWarnings s target }

def check (s : Schema) (v : Verifier) (st : Statement) : Except CheckError TypedStatement :=
  if st.table.name != s.name then
    .error (.type ⟨st.table.position, .wrongTable st.table.name s.name⟩)
  else body s v st

end Checker
end Attest
