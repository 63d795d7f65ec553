import Mathlib.Data.List.Chain
import Attest.Node.Sql
import Attest.Proofs.Double.Text
import Attest.Proofs.Token.Lexed

/-!
Values and their quotes.

Text in a literal stands between quotes, with the quotes in it doubled, and all else that is printed
has none.  So the pieces of a statement can be told apart again, whatever its values are: the
contents of the quoted segments are the texts of the values in order, and what is between them holds
no comment and no semicolon.

The text of a statement is glued together from the texts of its parts.  Glue has no sign that could
begin or end a comment, so that only the inside of a part has to be looked at, and a part next to
another part never arises.
-/

namespace Attest

namespace Value

mutual

/-- What a value has to say in quotes, in order. -/
def payloads : Value → List String
  | nat _ => []
  | int _ => []
  | float _ => []
  | text s => [s]
  | bool _ => []
  | uuid u => [u.hyphenated]
  | timestamp millis => (Instant.format millis.toInt).toList
  | vector items => payloadsOf items
  | scores s => [s.render]

def payloadsOf : List Value → List String
  | [] => []
  | v :: rest => v.payloads ++ payloadsOf rest

end

end Value

def Predicate.payloads : Predicate → List String
  | column _ => []
  | literal v => v.value.payloads
  | unary _ p => p.payloads
  | binary _ l r => l.payloads ++ r.payloads
  | isNull p _ => p.payloads

/-- The texts in the values of a node: those that it writes, and those of its condition. -/
def Node.payloads (n : Node) : List String :=
  n.cells.flatMap (·.value.value.payloads) ++ (n.predicate.map Predicate.payloads).getD []

namespace Sql

/-- A piece of a text: a character outside of quotes, or the content of a quoted segment. -/
inductive Piece where
  | bare (c : Char)
  | quoted (content : String)
deriving DecidableEq

/-- The pieces of a text, if its quotes balance.  A quoted segment ends with the next quote that is
not doubled; what has been read of it is kept. -/
def scan : Option (List Char) → List Char → Option (List Piece)
  | none, [] => some []
  | some _, [] => none
  | none, '\'' :: rest => scan (some []) rest
  | none, c :: rest => (scan none rest).map (.bare c :: ·)
  | some seen, '\'' :: '\'' :: rest => scan (some (seen ++ ['\''])) rest
  | some seen, '\'' :: rest => (scan none rest).map (.quoted (String.ofList seen) :: ·)
  | some seen, c :: rest => scan (some (seen ++ [c])) rest

namespace Piece

def content? : Piece → Option String
  | bare _ => none
  | quoted s => some s

def text : Piece → List Char
  | bare c => [c]
  | quoted s => (quote s).toList

/-- Whether two pieces may stand side by side: they begin no comment, and quotes do not meet. -/
def meets : Piece → Piece → Bool
  | bare '-', bare '-' => false
  | bare '/', bare '*' => false
  | quoted _, quoted _ => false
  | _, _ => true

/-- Whether a piece may stand beside any other. -/
def isLoose : Piece → Bool
  | bare c => c != '-' && c != '/' && c != '*'
  | quoted _ => false

theorem meets_of_isLoose {p q : Piece} (h : p.isLoose = true ∨ q.isLoose = true) :
    p.meets q = true := by
  unfold meets
  split
  · simp [isLoose] at h
  · simp [isLoose] at h
  · simp [isLoose] at h
  · rfl

end Piece

section Scanning

theorem scan_bare {c : Char} (hc : c ≠ '\'') (rest : List Char) :
    scan none (c :: rest) = (scan none rest).map (.bare c :: ·) := by
  rw [scan]
  exact hc

theorem scan_content (s seen : List Char) {rest : List Char} (hrest : rest.head? ≠ some '\'') :
    scan (some seen)
        (s.flatMap (fun c => if c == '\'' then ['\'', '\''] else [c]) ++ '\'' :: rest) =
      (scan none rest).map (.quoted (String.ofList (seen ++ s)) :: ·) := by
  induction s generalizing seen with
  | nil =>
    rw [List.flatMap_nil, List.nil_append, List.append_nil, scan]
    rintro t rfl
    exact hrest rfl
  | cons c s ih =>
    rw [List.flatMap_cons]
    by_cases hc : c = '\''
    · subst hc
      have := ih (seen ++ ['\''])
      rw [List.append_assoc] at this
      exact this
    · have := ih (seen ++ [c])
      rw [List.append_assoc] at this
      rw [if_neg (by simpa using hc), List.append_assoc, List.singleton_append, scan]
      · exact this
      · exact fun _ h => absurd h hc
      · exact hc

theorem scan_quote (s : String) {rest : List Char} (hrest : rest.head? ≠ some '\'') :
    scan none ((quote s).toList ++ rest) = (scan none rest).map (.quoted s :: ·) := by
  have htext : (quote s).toList ++ rest = '\'' :: (s.toList.flatMap
      (fun c => if c == '\'' then ['\'', '\''] else [c]) ++ '\'' :: rest) := by
    simp [quote]
  rw [htext, scan, scan_content s.toList [] hrest, List.nil_append, String.ofList_toList]

/-- Pieces that may stand side by side are found again. -/
theorem scan_text {ps : List Piece} (hmeets : ps.IsChain (·.meets ·))
    (hps : .bare '\'' ∉ ps) : scan none (ps.flatMap Piece.text) = some ps := by
  induction ps with
  | nil => rfl
  | cons p ps ih =>
    have hrest := ih hmeets.tail fun h => hps (List.mem_cons_of_mem _ h)
    cases p with
    | bare c =>
      have hc : c ≠ '\'' := by
        rintro rfl
        exact hps List.mem_cons_self
      show scan none (c :: ps.flatMap Piece.text) = _
      rw [scan_bare hc, hrest]
      rfl
    | quoted s =>
      rw [List.flatMap_cons, Piece.text, scan_quote, hrest]
      · rfl
      · -- a quote right behind would have been read as a doubled one
        cases ps with
        | nil => simp
        | cons q ps =>
          have hmeet := (List.isChain_cons_cons.mp hmeets).1
          cases q with
          | quoted t => cases hmeet
          | bare c =>
            rintro ⟨⟩
            exact hps (List.mem_cons_of_mem _ List.mem_cons_self)

end Scanning

section Glueing

variable {a b g : String} {xs ys : List String} {ps qs : List Piece}

/-- A text is made of these pieces, with these contents between quotes and no comment or semicolon
outside. -/
structure Spells (ps : List Piece) (a : String) (xs : List String) : Prop where
  text : a.toList = ps.flatMap Piece.text
  contents : ps.filterMap Piece.content? = xs
  meets : ps.IsChain (·.meets ·)
  plain : ∀ p ∈ ps, p ≠ .bare '\'' ∧ p ≠ .bare ';'

/-- A text that has these contents between quotes and no comment or semicolon outside. -/
def Neat (a : String) (xs : List String) : Prop := ∃ ps, Spells ps a xs

/-- Such a text that may be followed by any other. -/
def Open (a : String) (xs : List String) : Prop :=
  ∃ ps, Spells ps a xs ∧ ∀ p ∈ ps.getLast?, p.isLoose = true

/-- The characters that quotes, comments and ends are made of. -/
def signs : List Char := ['\'', ';', '-', '/', '*']

/-- Whether a text may stand between any others. -/
def isGlue (g : String) : Bool :=
  !g.toList.isEmpty && g.toList.all fun c => !signs.contains c

theorem Spells.append (ha : Spells ps a xs) (hb : Spells qs b ys)
    (hmeet : ∀ p ∈ ps.getLast?, ∀ q ∈ qs.head?, p.meets q = true) :
    Spells (ps ++ qs) (a ++ b) (xs ++ ys) where
  text := by rw [String.toList_append, ha.text, hb.text, List.flatMap_append]
  contents := by rw [List.filterMap_append, ha.contents, hb.contents]
  meets := List.isChain_append.mpr ⟨ha.meets, hb.meets, hmeet⟩
  plain := List.forall_mem_append.mpr ⟨ha.plain, hb.plain⟩

theorem spells_bare (hmeets : (a.toList.map Piece.bare).IsChain (·.meets ·))
    (hplain : ∀ c ∈ a.toList, c ≠ '\'' ∧ c ≠ ';') : Spells (a.toList.map .bare) a [] where
  text := by simp [List.flatMap_map, Piece.text]
  contents := by simp [List.filterMap_map, Function.comp_def, Piece.content?]
  meets := hmeets
  plain := by
    rintro p hp
    obtain ⟨c, hc, rfl⟩ := List.mem_map.mp hp
    simpa using hplain c hc

theorem isGlue_iff : isGlue g = true ↔ g.toList ≠ [] ∧ ∀ c ∈ g.toList, c ∉ signs := by
  simp [isGlue]

/-- A text of characters of a sort that no sign is of. -/
theorem isGlue_of_forall {p : Char → Bool} (hp : signs.any p = false) (hne : g.toList ≠ [])
    (hg : ∀ c ∈ g.toList, p c = true) : isGlue g = true := by
  refine isGlue_iff.mpr ⟨hne, fun c hc hsign => ?_⟩
  exact List.any_eq_false.mp hp c hsign (hg c hc)

theorem isLoose_of_isGlue (h : isGlue g = true) :
    ∀ p ∈ g.toList.map Piece.bare, p.isLoose = true := by
  intro p hp
  obtain ⟨c, hc, rfl⟩ := List.mem_map.mp hp
  have hc := (isGlue_iff.mp h).2 c hc
  simp only [signs, List.mem_cons, not_or] at hc
  simp [Piece.isLoose, hc]

theorem spells_glue (h : isGlue g = true) : Spells (g.toList.map .bare) g [] := by
  have hplain : ∀ c ∈ g.toList, c ≠ '\'' ∧ c ≠ ';' := by
    intro c hc
    have hc := (isGlue_iff.mp h).2 c hc
    simp only [signs, List.mem_cons, not_or] at hc
    exact ⟨hc.1, hc.2.1⟩
  refine spells_bare (List.Pairwise.isChain ?_) hplain
  exact List.pairwise_of_forall_mem_list fun p hp _ _ =>
    Piece.meets_of_isLoose (.inl (isLoose_of_isGlue h p hp))

theorem Open.neat (h : Open a xs) : Neat a xs := h.imp fun _ h => h.1

theorem open_glue (h : isGlue g = true) : Open g [] :=
  ⟨_, spells_glue h, fun p hp => isLoose_of_isGlue h p (List.mem_of_getLast? hp)⟩

theorem Open.append (ha : Open a xs) (hb : Neat b ys) : Neat (a ++ b) (xs ++ ys) := by
  obtain ⟨ps, ha, hlast⟩ := ha
  obtain ⟨qs, hb⟩ := hb
  exact ⟨ps ++ qs, ha.append hb fun p hp q _ => Piece.meets_of_isLoose (.inl (hlast p hp))⟩

theorem Open.append_bare (ha : Open a xs) (hb : Neat b []) : Neat (a ++ b) xs := by
  simpa using ha.append hb

theorem Neat.glue (ha : Neat a xs) (hg : isGlue g = true) : Open (a ++ g) xs := by
  obtain ⟨ps, ha⟩ := ha
  have hloose := isLoose_of_isGlue hg
  have hmeet : ∀ p ∈ ps.getLast?, ∀ q ∈ (g.toList.map Piece.bare).head?, p.meets q = true :=
    fun p _ q hq => Piece.meets_of_isLoose (.inr (hloose q (List.mem_of_mem_head? hq)))
  refine ⟨ps ++ g.toList.map .bare, ?_, fun p hp => ?_⟩
  · simpa using ha.append (spells_glue hg) hmeet
  · have hne : g.toList.map Piece.bare ≠ [] := by
      simpa using (isGlue_iff.mp hg).1
    rw [List.getLast?_append_of_ne_nil _ hne] at hp
    exact hloose p (List.mem_of_getLast? hp)

theorem neat_empty : Neat "" [] := ⟨[], rfl, rfl, .nil, by simp⟩

theorem neat_quote (s : String) : Neat (quote s) [s] :=
  ⟨[.quoted s], by simp [Piece.text], rfl, .singleton _, by simp⟩

theorem neat_intercalate {α : Type} {f : α → String} {g : α → List String} {items : List α}
    (h : ∀ i ∈ items, Neat (f i) (g i)) :
    Neat (", ".intercalate (items.map f)) (items.flatMap g) := by
  induction items with
  | nil => exact neat_empty
  | cons i items ih =>
    obtain ⟨hi, hitems⟩ := List.forall_mem_cons.mp h
    cases items with
    | nil => simpa using hi
    | cons j items =>
      have htext : ", ".intercalate ((i :: j :: items).map f) =
          f i ++ ", " ++ ", ".intercalate ((j :: items).map f) := by
        apply String.toList_injective
        simp [String.toList_intercalate, List.intercalate]
      rw [htext, List.flatMap_cons]
      exact (hi.glue (by decide +kernel)).append (ih hitems)

theorem neat_intercalate_bare {α : Type} {f : α → String} {items : List α}
    (h : ∀ i ∈ items, Neat (f i) []) : Neat (", ".intercalate (items.map f)) [] := by
  have hitems := neat_intercalate (g := fun _ => []) h
  rwa [List.flatMap_eq_nil_iff.mpr fun _ _ => rfl] at hitems

end Glueing

section Printing

open Lexer (IsWord)

theorem isGlue_word {w : String} (h : IsWord w) : isGlue w = true :=
  isGlue_of_forall (p := Text.isIdentRest) (by decide) h.1 h.2.1

theorem neat_word {w : String} (h : IsWord w) : Neat w [] := (open_glue (isGlue_word h)).neat

theorem isGlue_nat (n : Nat) : isGlue n.repr = true := by
  refine isGlue_of_forall (p := Char.isDigit) (by decide) ?_ fun c hc => ?_
  · rw [Nat.toList_repr]
    exact Nat.toDigits_ne_nil
  · rw [Nat.toList_repr] at hc
    exact Nat.isDigit_of_mem_toDigits (by decide) (by decide) hc

theorem neat_minus : Neat "-" [] := ⟨_, spells_bare (by simp) (by simp)⟩

theorem neat_int (i : Int64) : Neat (toString i) [] := by
  show Neat (Int.repr i.toInt) []
  cases i.toInt with
  | ofNat n => exact (open_glue (isGlue_nat n)).neat
  | negSucc n => exact (neat_minus.glue (isGlue_nat (n + 1))).neat

theorem neat_float (x : Double) : Neat x.literal [] := by
  have hsigned {g : String} (h : isGlue g = true) :
      Neat ((if x.negative then "-" else "") ++ g) [] := by
    split
    · exact (neat_minus.glue h).neat
    · rw [String.empty_append]
      exact (open_glue h).neat
  by_cases hfinite : x.isFinite = true
  · obtain ⟨whole, fraction, hspelled, -, htext⟩ := Double.literal_eq hfinite
    rw [htext]
    apply hsigned
    refine isGlue_of_forall (p := fun c => c.isDigit || c == '.') (by decide)
      (by simp) fun c hc => ?_
    rw [String.toList_ofList, List.mem_append, List.mem_cons] at hc
    have hdigit := hspelled.digit c
    rw [List.mem_append] at hdigit
    rcases hc with hc | rfl | hc
    · simp [hdigit (.inl hc)]
    · simp
    · simp [hdigit (.inr hc)]
  · unfold Double.literal Double.render
    split
    · exact (open_glue (by decide +kernel)).neat
    · dsimp only
      rw [if_pos (by simpa using hfinite)]
      exact hsigned (by decide +kernel)

theorem literals_eq_map (items : List Value) : literals items = items.map literal := by
  induction items with
  | nil => rfl
  | cons v items ih => rw [literals, ih, List.map_cons]

theorem payloadsOf_eq_flatMap (items : List Value) :
    Value.payloadsOf items = items.flatMap Value.payloads := by
  induction items with
  | nil => rfl
  | cons v items ih => rw [Value.payloadsOf, ih, List.flatMap_cons]

mutual

theorem neat_literal : ∀ v : Value, Neat (literal v) v.payloads
  | .nat n => (open_glue (isGlue_nat n.toNat)).neat
  | .int i => neat_int i
  | .float x => neat_float x
  | .text s => neat_quote s
  | .bool b => by cases b <;> exact (open_glue (by decide +kernel)).neat
  | .uuid u => neat_quote u.hyphenated
  | .timestamp millis => by
    rw [literal, Value.payloads]
    split
    · next s hs => exact hs ▸ neat_quote s
    · next hs => exact hs ▸ neat_int millis
  | .vector items => by
    rw [literal, literals_eq_map, Value.payloads, payloadsOf_eq_flatMap]
    have hitems := neat_intercalate (neat_literals items)
    exact (((open_glue (by decide +kernel)).append hitems).glue (by decide +kernel)).neat
  | .scores s => neat_quote s.render

theorem neat_literals : ∀ items : List Value, ∀ v ∈ items, Neat (literal v) v.payloads
  | [] => by simp
  | w :: rest => List.forall_mem_cons.mpr ⟨neat_literal w, neat_literals rest⟩

end

theorem neat_name (op : BinaryOp) : Neat op.name [] :=
  ⟨_, spells_bare (by cases op <;> decide +kernel) (by cases op <;> simp [BinaryOp.name])⟩

theorem neat_predicate {p : Predicate} (h : ∀ c ∈ p.columns, IsWord c.name) :
    Neat (predicate p) p.payloads := by
  induction p with
  | column c => exact neat_word (h c List.mem_cons_self)
  | literal v => exact neat_literal v.value
  | unary op p ih =>
    have hall {sign : String} (hsign : Open sign []) :
        Neat (sign ++ predicate p ++ ")") p.payloads :=
      ((hsign.append (ih h)).glue (by decide +kernel)).neat
    cases op with
    | not => exact hall (open_glue (by decide +kernel))
    | neg => exact hall (neat_minus.glue (by decide +kernel))
    | plus => exact hall (open_glue (by decide +kernel))
  | binary op l r ihl ihr =>
    obtain ⟨hl, hr⟩ := List.forall_mem_append.mp h
    have hleft {a : String} (ha : isGlue a = true) : Neat (a ++ predicate l) l.payloads :=
      (open_glue ha).append (ihl hl)
    have hright {a : String} {xs : List String} (ha : Open a xs) :
        Neat (a ++ predicate r ++ ")") (xs ++ r.payloads) :=
      ((ha.append (ihr hr)).glue (by decide +kernel)).neat
    cases op with
    | pow | ne => exact hright ((hleft (by decide +kernel)).glue (by decide +kernel))
    | _ =>
      have hspace := (hleft (a := "(") (by decide +kernel)).glue (g := " ") (by decide +kernel)
      exact hright ((hspace.append_bare (neat_name _)).glue (by decide +kernel))
  | isNull p negated ih =>
    have his := (ih h).glue (g := " IS ") (by decide +kernel)
    rw [predicate, Predicate.payloads]
    cases negated with
    | true => exact ((his.neat.glue (by decide +kernel)).neat.glue (by decide +kernel)).neat
    | false =>
      rw [if_neg (by simp), String.append_empty]
      exact (his.neat.glue (by decide +kernel)).neat

variable {n : Node} {a : String} {xs : List String}

theorem neat_where {o : Option Predicate} (ha : Neat a xs)
    (h : ∀ p ∈ o, ∀ c ∈ p.columns, IsWord c.name) :
    Neat (a ++ whereClause o) (xs ++ (o.map Predicate.payloads).getD []) := by
  cases o with
  | none => simpa [whereClause] using ha
  | some p =>
    rw [whereClause, ← String.append_assoc]
    exact (ha.glue (by decide +kernel)).append (neat_predicate (h p rfl))

theorem neat_order {keys : List SortKey} (ha : Neat a xs) (h : ∀ k ∈ keys, IsWord k.column) :
    Neat (a ++ orderClause keys) xs := by
  unfold orderClause
  split
  · rwa [String.append_empty]
  · rw [← String.append_assoc]
    refine (ha.glue (by decide +kernel)).append_bare (neat_intercalate_bare fun k hk => ?_)
    have hspace := (neat_word (h k hk)).glue (g := " ") (by decide +kernel)
    exact (hspace.neat.glue (by cases k.direction <;> decide +kernel)).neat

theorem neat_limit {limit : Option UInt64} (ha : Neat a xs) : Neat (a ++ limitClause limit) xs := by
  cases limit with
  | none => rwa [limitClause, String.append_empty]
  | some k =>
    show Neat (a ++ (" LIMIT " ++ k.toNat.repr)) xs
    rw [← String.append_assoc]
    exact ((ha.glue (by decide +kernel)).neat.glue (isGlue_nat _)).neat

/-- The names in a node are words, and it has the parts of its kind. -/
structure Worded (n : Node) : Prop where
  table : IsWord n.table
  cells : ∀ c ∈ n.cells, IsWord c.column
  predicate : ∀ p ∈ n.predicate, ∀ c ∈ p.columns, IsWord c.name
  orderBy : ∀ k ∈ n.orderBy, IsWord k.column
  projection : n.kind = .select → ∀ c ∈ n.projection, IsWord c.name
  unconditional : n.kind = .insert → n.predicate = none
  reading : n.kind = .select ∨ n.kind = .delete → n.cells = []

/-- The statement of a node is such a text and a semicolon. -/
theorem statement_eq (h : Worded n) (hkind : n.kind ≠ .normalize) :
    ∃ body, statement n = body ++ ";" ∧ Neat body n.payloads := by
  have htable {g : String} (hg : isGlue g = true) : Neat (g ++ n.table) [] :=
    (open_glue hg).append_bare (neat_word h.table)
  unfold statement Node.payloads
  cases hk : n.kind with
  | normalize => exact absurd hk hkind
  | insert =>
    refine ⟨"INSERT INTO " ++ n.table ++ " (" ++ ", ".intercalate (n.cells.map (·.column))
      ++ ") VALUES (" ++ ", ".intercalate (n.cells.map fun c => literal c.value.value) ++ ")",
      ?_, ?_⟩
    · simp only [String.append_assoc]
      rfl
    · have hopen := (htable (g := "INSERT INTO ") (by decide +kernel)).glue (g := " (")
        (by decide +kernel)
      have hcolumns := hopen.append_bare
        (neat_intercalate_bare fun c hc => neat_word (h.cells c hc))
      have hvalues := (hcolumns.glue (g := ") VALUES (") (by decide +kernel)).append
        (neat_intercalate fun c (_ : c ∈ n.cells) => neat_literal c.value.value)
      rw [h.unconditional hk]
      simpa using (hvalues.glue (g := ")") (by decide +kernel)).neat
  | select =>
    -- the star is no glue, but has a space on either side
    have hcolumns : Neat (if n.projection.isEmpty then "*"
        else ", ".intercalate (n.projection.map (·.name))) [] := by
      split
      · exact ⟨_, spells_bare (by simp) (by simp)⟩
      · exact neat_intercalate_bare fun c hc => neat_word (h.projection hk c hc)
    have hfrom := ((open_glue (g := "SELECT ") (by decide +kernel)).append_bare hcolumns).glue
      (g := " FROM ") (by decide +kernel)
    have hrows := neat_where (hfrom.append_bare (neat_word h.table)) h.predicate
    rw [h.reading (.inl hk)]
    exact ⟨_, rfl, neat_limit (neat_order hrows h.orderBy)⟩
  | update =>
    have hcells : Neat (", ".intercalate (n.cells.map fun c =>
        c.column ++ " = " ++ literal c.value.value))
        (n.cells.flatMap (·.value.value.payloads)) :=
      neat_intercalate fun c hc => ((neat_word (h.cells c hc)).glue (by decide +kernel)).append
        (neat_literal c.value.value)
    have hset := ((htable (g := "UPDATE ") (by decide +kernel)).glue (g := " SET ")
      (by decide +kernel)).append hcells
    exact ⟨_, rfl, neat_where hset h.predicate⟩
  | delete =>
    rw [h.reading (.inr hk)]
    exact ⟨_, rfl, neat_where (htable (by decide +kernel)) h.predicate⟩

end Printing

/-- What stands behind the first line of a text. -/
def afterFirstLine (a : String) : List Char := (a.toList.dropWhile (· != '\n')).drop 1

/-- The quotes of a text balance, and hold these contents in order.  Outside of them there is no
comment, and the only semicolon comes last. -/
def Encloses (cs : List Char) (xs : List String) : Prop :=
  ∃ ps, scan none cs = some ps ∧ ps.filterMap Piece.content? = xs ∧
    ¬ [.bare '-', .bare '-'] <:+: ps ∧ ¬ [.bare '/', .bare '*'] <:+: ps ∧
      ∃ before, ps = before ++ [.bare ';'] ∧ .bare ';' ∉ before

theorem encloses_of_neat {a : String} {xs : List String} (h : Neat a xs) :
    Encloses (a ++ ";").toList xs := by
  obtain ⟨ps, h⟩ := h
  have hmeets : (ps ++ [Piece.bare ';']).IsChain (·.meets ·) := by
    refine List.isChain_append.mpr ⟨h.meets, .singleton _, fun p _ q hq => ?_⟩
    cases hq
    exact Piece.meets_of_isLoose (.inr (by decide))
  have hplain : .bare '\'' ∉ ps ++ [.bare ';'] := by
    rw [List.mem_append, not_or]
    exact ⟨fun hmem => (h.plain _ hmem).1 rfl, by decide⟩
  refine ⟨ps ++ [.bare ';'], ?_, ?_, ?_, ?_, ps, rfl, fun hmem => (h.plain _ hmem).2 rfl⟩
  · rw [← scan_text hmeets hplain, String.toList_append, h.text, List.flatMap_append]
    rfl
  · rw [List.filterMap_append, h.contents]
    exact List.append_nil _
  · intro hinfix
    have hpair := List.IsChain.infix hmeets hinfix
    cases List.isChain_pair.mp hpair
  · intro hinfix
    have hpair := List.IsChain.infix hmeets hinfix
    cases List.isChain_pair.mp hpair

theorem afterFirstLine_text (n : Node) : afterFirstLine (text n) = (statement n).toList := by
  have hnotice : ∀ c ∈ notice.toList, (c != '\n') = true := by
    rw [← List.all_eq_true]
    decide +kernel
  unfold afterFirstLine text
  rw [String.toList_append, String.toList_append, List.append_assoc,
    List.dropWhile_append_of_pos hnotice]
  rfl

/-- Behind its first line, the text of a node whose names are words keeps every value in its
quotes. -/
theorem encloses_text {n : Node} (h : Worded n) (hkind : n.kind ≠ .normalize) :
    Encloses (afterFirstLine (text n)) n.payloads := by
  obtain ⟨body, hbody, hneat⟩ := statement_eq h hkind
  rw [afterFirstLine_text, hbody]
  exact encloses_of_neat hneat

end Sql
end Attest
