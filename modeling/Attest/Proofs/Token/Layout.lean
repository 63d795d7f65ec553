import Attest.Proofs.Token.Lexed
import Mathlib.Data.List.Chain
import Mathlib.Data.List.Infix

/-!
Where the tokens of a source stand.

A source is its tokens in order with gaps between them, and a gap holds nothing but white space and,
where comments are no tokens, whole comments.  Places are counted along the source: what a cursor
adds up character by character is what a reader counts in the text before the place.  A cursor that
counts in words of 32 bits comes to the same places as long as no word can overflow.
-/

namespace Attest

namespace Position

/-- The place behind a text, by what is counted in it. -/
def behind (cs : List Char) : Position where
  line := 1 + cs.count '\n'
  column := 1 + (cs.reverse.takeWhile (· != '\n')).length
  offset := (String.ofList cs).utf8ByteSize

theorem after_append (p : Position) (cs ds : List Char) :
    p.after (cs ++ ds) = (p.after cs).after ds := List.foldl_append

theorem next_behind (cs : List Char) (c : Char) : (behind cs).next c = behind (cs ++ [c]) := by
  unfold next behind
  by_cases hc : c = '\n'
  · simp [hc, String.ofList_append, Nat.add_assoc]
    rfl
  · simp [hc, String.ofList_append, Nat.add_assoc]

theorem after_behind (cs ds : List Char) : (behind cs).after ds = behind (cs ++ ds) := by
  induction ds generalizing cs with
  | nil => rw [List.append_nil]; rfl
  | cons d ds ih =>
    show ((behind cs).next d).after ds = _
    rw [next_behind, ih, List.append_assoc]
    rfl

theorem offset_behind_append (cs ds : List Char) :
    (behind (cs ++ ds)).offset = (behind cs).offset + (String.ofList ds).utf8ByteSize := by
  simp [behind, String.ofList_append]

/-- A line and a column in words of 32 bits. -/
structure Words where
  line : UInt32
  column : UInt32

namespace Words

/-- A step of a cursor whose counts wrap around. -/
def next (w : Words) (c : Char) : Words :=
  if c == '\n' then ⟨w.line + 1, 1⟩ else ⟨w.line, w.column + 1⟩

/-- What such a cursor has counted behind a text. -/
def behind (cs : List Char) : Words := cs.foldl next ⟨1, 1⟩

/-- The words are the line and the column of a place, and not only what is left of them. -/
structure Tell (w : Words) (p : Position) : Prop where
  line : w.line.toNat = p.line
  column : w.column.toNat = p.column

end Words

def words (p : Position) : Words := ⟨.ofNat p.line, .ofNat p.column⟩

theorem words_next (p : Position) (c : Char) : (p.next c).words = p.words.next c := by
  unfold next Words.next words
  split
  · rw [UInt32.ofNat_add]
    rfl
  · rw [UInt32.ofNat_add]
    rfl

theorem words_after (p : Position) (cs : List Char) :
    (p.after cs).words = cs.foldl Words.next p.words := by
  induction cs generalizing p with
  | nil => rfl
  | cons c cs ih =>
    show ((p.next c).after cs).words = _
    rw [ih, words_next]
    rfl

theorem words_behind (cs : List Char) : (behind cs).words = .behind cs := by
  rw [← List.nil_append cs, ← after_behind, words_after]
  rfl

theorem line_behind_le (cs : List Char) : (behind cs).line ≤ cs.length + 1 := by
  have hcount : cs.count '\n' ≤ cs.length := List.count_le_length
  show 1 + _ ≤ _
  omega

theorem column_behind_le (cs : List Char) : (behind cs).column ≤ cs.length + 1 := by
  have hline : (cs.reverse.takeWhile (· != '\n')).length ≤ cs.reverse.length :=
    (List.takeWhile_prefix _).length_le
  rw [List.length_reverse] at hline
  show 1 + _ ≤ _
  omega

theorem words_tell {p : Position} {n : Nat} (hn : n + 1 < UInt32.size) (hline : p.line ≤ n + 1)
    (hcolumn : p.column ≤ n + 1) : p.words.Tell p where
  line := UInt32.toNat_ofNat_of_lt' (Nat.lt_of_le_of_lt hline hn)
  column := UInt32.toNat_ofNat_of_lt' (Nat.lt_of_le_of_lt hcolumn hn)

theorem behind_tell {cs source : List Char} (h : cs <+: source)
    (hsource : source.length + 1 < UInt32.size) : (Words.behind cs).Tell (behind cs) := by
  have hlength := h.length_le
  rw [← words_behind]
  refine words_tell hsource ?_ ?_
  · exact (line_behind_le cs).trans (by omega)
  · exact (column_behind_le cs).trans (by omega)

end Position

namespace Lexer

/-- A comment in full, with `rest` behind it: to the end of its line, or to the first mark that
closes it. -/
inductive Comment (rest : List Char) : List Char → Prop where
  | line {body : List Char} (hbody : '\n' ∉ body) (hrest : ∀ c ∈ rest.head?, c = '\n') :
      Comment rest ('-' :: '-' :: body)
  | block {body : List Char} (hbody : ¬ ['*', '/'] <:+: body ++ ['*']) :
      Comment rest ('/' :: '*' :: (body ++ ['*', '/']))

/-- What stands before a token, with `rest` behind it. -/
inductive Gap (keep : Bool) (rest : List Char) : List Char → Prop where
  | nil : Gap keep rest []
  | space {c : Char} {cs : List Char} (hc : Text.isSpace c = true) (h : Gap keep rest cs) :
      Gap keep rest (c :: cs)
  | comment {cs ds : List Char} (hkeep : keep = false) (hcs : Comment (ds ++ rest) cs)
      (h : Gap keep rest ds) : Gap keep rest (cs ++ ds)

theorem Gap.spaces {keep : Bool} {rest cs ds : List Char} (hcs : ∀ c ∈ cs, Text.isSpace c = true)
    (h : Gap keep rest ds) : Gap keep rest (cs ++ ds) := by
  induction cs with
  | nil => exact h
  | cons c cs ih =>
    obtain ⟨hc, hcs⟩ := List.forall_mem_cons.mp hcs
    exact .space hc (ih hcs)

theorem blockComment_eq_some {n m : Nat} {cs : List Char} (h : blockComment n cs = some m) :
    ∃ body rest, cs = body ++ '*' :: '/' :: rest ∧ m = n + body.length + 2 ∧
      ¬ ['*', '/'] <:+: body ++ ['*'] := by
  fun_induction blockComment n cs with
  | case1 n rest =>
    cases h
    exact ⟨[], rest, rfl, rfl, by decide⟩
  | case2 n c cs hstart ih =>
    obtain ⟨body, rest, rfl, rfl, hbody⟩ := ih h
    refine ⟨c :: body, rest, rfl, by rw [List.length_cons]; omega, ?_⟩
    rw [List.cons_append, List.infix_cons_iff]
    rintro (⟨tail, htail⟩ | hinfix)
    · -- A mark at the very front would have closed the comment before.
      obtain ⟨hc, hrest⟩ := List.cons.inj htail
      cases body with
      | nil => cases hrest
      | cons d body =>
        have hd : '/' = d := (List.cons.inj hrest).1
        exact hstart (body ++ '*' :: '/' :: rest) hc.symm (by rw [← hd]; rfl)
    · exact hbody hinfix
  | case3 => cases h

theorem comment_line (r : List Char) :
    Comment (('-' :: '-' :: r).drop ((('-' :: r).takeWhile (· != '\n')).length + 1))
      (('-' :: '-' :: r).take ((('-' :: r).takeWhile (· != '\n')).length + 1)) := by
  have hsplit : r.takeWhile (· != '\n') ++ r.dropWhile (· != '\n') = r :=
    List.takeWhile_append_dropWhile
  have hfirst := List.head?_dropWhile_not (· != '\n') r
  have hbody : '\n' ∉ r.takeWhile (· != '\n') := fun hmem => by
    simpa using List.mem_takeWhile_imp hmem
  rw [show ('-' :: r).takeWhile (· != '\n') = '-' :: r.takeWhile (· != '\n') from rfl]
  generalize r.takeWhile (· != '\n') = body at *
  generalize r.dropWhile (· != '\n') = tail at *
  subst hsplit
  rw [List.length_cons, List.take_succ_cons, List.take_succ_cons, List.take_left,
    List.drop_succ_cons, List.drop_succ_cons, List.drop_left]
  refine .line hbody fun c hc => ?_
  rw [Option.mem_def.mp hc] at hfirst
  simpa using hfirst

theorem comment_block {r : List Char} {n : Nat} (h : blockComment 1 r = some n) :
    Comment (('/' :: '*' :: r).drop (n + 1)) (('/' :: '*' :: r).take (n + 1)) := by
  obtain ⟨body, tail, hr, rfl, hbody⟩ := blockComment_eq_some h
  have hr : r = (body ++ ['*', '/']) ++ tail := by simpa using hr
  have hsize : 1 + body.length + 2 = (body ++ ['*', '/']).length + 1 := by
    rw [List.length_append]
    simp only [List.length_cons, List.length_nil]
    omega
  rw [hr, hsize, List.take_succ_cons, List.take_succ_cons, List.take_left]
  exact .block hbody

/-- What is scanned is never the end, and a comment that is scanned is a whole one. -/
theorem comment_of_scan {c : Char} {rest : List Char} {kind : TokenKind} {extra : Nat}
    (h : scan c rest = .ok (kind, extra)) :
    kind ≠ .eof ∧ (kind.isComment = true →
      Comment ((c :: rest).drop (extra + 1)) ((c :: rest).take (extra + 1))) := by
  unfold scan at h
  split_ifs at h with hline hblock hquote hdigit hstart
  · cases h
    obtain ⟨rfl, hhead⟩ : c = '-' ∧ rest.head? = some '-' := by simpa using hline
    obtain ⟨r, rfl⟩ := List.head?_eq_some_iff.mp hhead
    exact ⟨by simp, fun _ => comment_line r⟩
  · obtain ⟨rfl, hhead⟩ : c = '/' ∧ rest.head? = some '*' := by simpa using hblock
    obtain ⟨r, rfl⟩ := List.head?_eq_some_iff.mp hhead
    split at h
    · next n hn =>
      cases h
      exact ⟨by simp, fun _ => comment_block hn⟩
    · cases h
  · obtain ⟨s, rfl⟩ := textFrom_kind h
    exact ⟨by simp, fun hk => by cases hk⟩
  · rcases number_kind h with ⟨n, rfl⟩ | ⟨x, rfl, -⟩
    · exact ⟨by simp, fun hk => by cases hk⟩
    · exact ⟨by simp, fun hk => by cases hk⟩
  · cases h
    obtain ⟨hcomment, hend⟩ :=
      wordKind_kind (String.ofList ((c :: rest).takeWhile Text.isIdentRest))
    exact ⟨hend, fun hk => absurd (hcomment.symm.trans hk) Bool.false_ne_true⟩
  · split at h
    · cases h
      exact ⟨by simp, fun hk => by cases hk⟩
    · cases h

theorem skipSpace_eq (c : Cursor) : ∃ spaces, (∀ ch ∈ spaces, Text.isSpace ch = true) ∧
    c.rest = spaces ++ c.skipSpace.rest ∧ c.skipSpace.position = c.position.after spaces := by
  have hprefix : c.rest.takeWhile Text.isSpace <+: c.rest := List.takeWhile_prefix _
  refine ⟨c.rest.takeWhile Text.isSpace, fun ch hmem => List.mem_takeWhile_imp hmem,
    List.prefix_append_drop hprefix, ?_⟩
  show c.position.after (c.rest.take (c.rest.takeWhile Text.isSpace).length) = _
  rw [← List.prefix_iff_eq_take.mp hprefix]

/-- What there is to read at a cursor, white space and comments included. -/
def scanAt (c : Cursor) : Except (LexError × Cursor) (Token × Cursor) :=
  match c.rest with
  | [] => .ok (⟨.eof, "", c.position⟩, c)
  | ch :: rest => match scan ch rest with
    | .error f => .error (⟨(c.skip f.before).position, f.fault⟩, c.skip f.read)
    | .ok (kind, extra) =>
      .ok (⟨kind, String.ofList (c.rest.take (extra + 1)), c.position⟩, c.skip (extra + 1))

/-- One step of the lexer passes a gap and reads what comes behind it. -/
theorem next_eq_scanAt (keep : Bool) (c : Cursor) :
    ∃ gap tail, c.rest = gap ++ tail ∧ Gap keep tail gap ∧
      next keep c = scanAt ⟨tail, c.position.after gap⟩ := by
  have hspaces (c : Cursor) (ds rest : List Char) (hgap : Gap keep rest ds) :
      ∃ spaces, c.rest = spaces ++ c.skipSpace.rest ∧ Gap keep rest (spaces ++ ds) ∧
        c.skipSpace = ⟨c.skipSpace.rest, c.position.after spaces⟩ := by
    obtain ⟨spaces, hspace, hrest, hplace⟩ := skipSpace_eq c
    exact ⟨spaces, hrest, hgap.spaces hspace, by rw [← hplace]⟩
  have hstops {c : Cursor} {r : Except (LexError × Cursor) (Token × Cursor)}
      (h : r = scanAt c.skipSpace) : ∃ gap tail, c.rest = gap ++ tail ∧ Gap keep tail gap ∧
        r = scanAt ⟨tail, c.position.after gap⟩ := by
    obtain ⟨spaces, hrest, hgap, hhere⟩ := hspaces c [] c.skipSpace.rest .nil
    exact ⟨spaces, _, hrest, by simpa using hgap, h.trans (congrArg scanAt hhere)⟩
  fun_induction next keep c with
  | case1 c here hr => exact hstops (by rw [scanAt, show c.skipSpace.rest = [] from hr])
  | case2 c here ch rest hr f hs =>
    refine hstops ?_
    rw [scanAt, show c.skipSpace.rest = ch :: rest from hr]
    simp only [hs]
    rfl
  | case3 c here ch rest hr kind extra hs hk ih =>
    obtain ⟨gap, tail, htail, hgap, hnext⟩ := ih
    obtain ⟨hcomment, hkeep⟩ : kind.isComment = true ∧ keep = false := by simpa using hk
    have hdrop : here.rest.drop (extra + 1) = gap ++ tail := htail
    have hwhole := (comment_of_scan hs).2 hcomment
    rw [← hr, hdrop] at hwhole
    obtain ⟨spaces, hrest, hgap, hhere⟩ := hspaces c _ tail (.comment hkeep hwhole hgap)
    refine ⟨spaces ++ (here.rest.take (extra + 1) ++ gap), tail, ?_, hgap, ?_⟩
    · rw [hrest, List.append_assoc, List.append_assoc, ← hdrop, List.take_append_drop]
    · rw [hnext, Position.after_append, Position.after_append]
      show scanAt ⟨tail, (here.position.after _).after gap⟩ = _
      rw [show here.position = c.position.after spaces from congrArg Cursor.position hhere]
  | case4 c here ch rest hr kind extra hs hk =>
    refine hstops ?_
    rw [scanAt, show c.skipSpace.rest = ch :: rest from hr]
    simp only [hs]
    rfl

theorem scanAt_eq_error {tail : List Char} {p : Position} {e : LexError} {c : Cursor}
    (h : scanAt ⟨tail, p⟩ = .error (e, c)) :
    ∃ ch rest f, tail = ch :: rest ∧ scan ch rest = .error f ∧
      e = ⟨p.after (tail.take f.before), f.fault⟩ := by
  unfold scanAt at h
  split at h
  · cases h
  · next ch rest hr =>
    split at h
    · next f hf =>
      cases h
      exact ⟨ch, rest, f, hr, hf, rfl⟩
    · cases h

theorem scanAt_eq_ok {tail : List Char} {p : Position} {t : Token} {c : Cursor}
    (h : scanAt ⟨tail, p⟩ = .ok (t, c)) :
    tail = [] ∧ t = ⟨.eof, "", p⟩ ∨
      t.kind ≠ .eof ∧ t.lexeme ≠ "" ∧ t.position = p ∧ tail = t.lexeme.toList ++ c.rest ∧
        c.position = p.after t.lexeme.toList := by
  unfold scanAt at h
  split at h
  · next hr =>
    cases h
    exact .inl ⟨hr, rfl⟩
  · next ch rest hr =>
    split at h
    · cases h
    · next kind extra hs =>
      cases h
      refine .inr ⟨(comment_of_scan hs).1, ?_, rfl, ?_, ?_⟩
      · rw [show tail = ch :: rest from hr]
        simp
      · simp [Cursor.skip]
      · simp [Cursor.skip]

/-- Tokens along a text that comes behind another: gaps and tokens in turn, up to the end of the
text or to a place where there is no token. -/
inductive Along (keep : Bool) : List Char → List Char → List Token → Option LexError → Prop where
  | failed {before gap rest : List Char} {c : Char} {f : Failure} (hgap : Gap keep (c :: rest) gap)
      (hscan : scan c rest = .error f) :
      Along keep before (gap ++ c :: rest) []
        (some ⟨.behind (before ++ (gap ++ (c :: rest).take f.before)), f.fault⟩)
  | last {before gap : List Char} (hgap : Gap keep [] gap) :
      Along keep before gap [⟨.eof, "", .behind (before ++ gap)⟩] none
  | token {before gap rest : List Char} {t : Token} {ts : List Token} {e : Option LexError}
      (hgap : Gap keep (t.lexeme.toList ++ rest) gap)
      (hplace : t.position = .behind (before ++ gap)) (hkind : t.kind ≠ .eof)
      (htext : t.lexeme ≠ "") (h : Along keep (before ++ gap ++ t.lexeme.toList) rest ts e) :
      Along keep before (gap ++ (t.lexeme.toList ++ rest)) (t :: ts) e

theorem along_tokensFrom (keep : Bool) (c : Cursor) (before : List Char)
    (hc : c.position = .behind before) :
    Along keep before c.rest (tokensFrom keep c).1 (tokensFrom keep c).2 := by
  fun_induction tokensFrom keep c generalizing before with
  | case1 c e c' hnext =>
    obtain ⟨gap, tail, hrest, hgap, heq⟩ := next_eq_scanAt keep c
    obtain ⟨ch, rest, f, rfl, hs, rfl⟩ := scanAt_eq_error (heq.symm.trans hnext)
    rw [hrest, hc, Position.after_behind, Position.after_behind, List.append_assoc]
    exact .failed hgap hs
  | case2 c t c' hnext hend =>
    obtain ⟨gap, tail, hrest, hgap, heq⟩ := next_eq_scanAt keep c
    rcases scanAt_eq_ok (heq.symm.trans hnext) with ⟨rfl, rfl⟩ | ⟨hkind, -⟩
    · rw [hrest, hc, Position.after_behind, List.append_nil]
      exact .last hgap
    · exact absurd (by simpa [Token.isEnd] using hend) hkind
  | case3 c t c' hnext hend more ih =>
    obtain ⟨gap, tail, hrest, hgap, heq⟩ := next_eq_scanAt keep c
    rcases scanAt_eq_ok (heq.symm.trans hnext) with ⟨-, rfl⟩ | ⟨hkind, htext, hplace, rfl, hbehind⟩
    · exact absurd rfl hend
    · rw [hc, Position.after_behind] at hplace hbehind
      rw [Position.after_behind] at hbehind
      rw [hrest]
      exact .token hgap hplace hkind htext (ih _ hbehind)

/-- A token comes next behind `before`, after a gap. -/
def ComesNext (keep : Bool) (source before : List Char) (t : Token) : Prop :=
  ∃ gap rest, source = before ++ (gap ++ (t.lexeme.toList ++ rest)) ∧
    Gap keep (t.lexeme.toList ++ rest) gap ∧ t.position = .behind (before ++ gap)

namespace Along

variable {keep : Bool} {before rest : List Char} {ts : List Token} {e : Option LexError}

theorem length_le (h : Along keep before rest ts e) :
    ts.length + e.toList.length ≤ rest.length + 1 := by
  induction h with
  | failed => simp
  | last => simp
  | @token before gap rest t ts e _ _ _ htext _ ih =>
    have hpos : 0 < t.lexeme.toList.length := by
      rw [List.length_pos_iff]
      simpa using htext
    simp only [List.length_cons, List.length_append]
    omega

/-- Every token comes at its place, behind what the text before it holds. -/
theorem exists_before (h : Along keep before rest ts e) :
    ∀ t ∈ ts, ∃ cs, before <+: cs ∧ cs ++ t.lexeme.toList <+: before ++ rest ∧
      t.position = .behind cs := by
  induction h with
  | failed => simp
  | @last before gap _ =>
    intro u hu
    rw [List.mem_singleton.mp hu]
    exact ⟨before ++ gap, List.prefix_append _ _, by simp, rfl⟩
  | @token before gap rest t ts e _ hplace _ _ _ ih =>
    intro u hu
    rcases List.mem_cons.mp hu with rfl | hu
    · exact ⟨before ++ gap, List.prefix_append _ _, ⟨rest, by simp⟩, hplace⟩
    · obtain ⟨cs, hcs, htext, hu⟩ := ih u hu
      refine ⟨cs, ?_, by simpa using htext, hu⟩
      rw [List.append_assoc] at hcs
      exact (List.prefix_append _ _).trans hcs

theorem comesNext (h : Along keep before rest ts e) :
    ∀ t ∈ ts.head?, ComesNext keep (before ++ rest) before t := by
  cases h with
  | failed => simp
  | last hgap =>
    rintro _ ⟨⟩
    exact ⟨rest, [], by simp, hgap, rfl⟩
  | @token _ gap rest t _ _ hgap hplace =>
    rintro _ ⟨⟩
    exact ⟨gap, rest, rfl, hgap, hplace⟩

theorem isChain (h : Along keep before rest ts e) :
    ts.IsChain fun t u => ∃ cs, t.position = .behind cs ∧
      ComesNext keep (before ++ rest) (cs ++ t.lexeme.toList) u := by
  induction h with
  | failed => exact .nil
  | last => exact .singleton _
  | @token before gap rest t ts e _ hplace _ _ h ih =>
    have hsource : before ++ gap ++ t.lexeme.toList ++ rest =
        before ++ (gap ++ (t.lexeme.toList ++ rest)) := by simp
    rw [hsource] at ih
    refine List.isChain_cons.mpr ⟨fun u hu => ?_, ih⟩
    exact ⟨before ++ gap, hplace, hsource ▸ h.comesNext u hu⟩

theorem error_eq (h : Along keep before rest ts e) :
    ∀ x ∈ e, ∃ cs gap c tail f, before ++ rest = cs ++ (gap ++ c :: tail) ∧
      (Position.behind cs).offset =
        (ts.getLast?.map Token.endOffset).getD (Position.behind before).offset ∧
      Gap keep (c :: tail) gap ∧ scan c tail = .error f ∧
      x = ⟨.behind (cs ++ (gap ++ (c :: tail).take f.before)), f.fault⟩ := by
  induction h with
  | @failed before gap rest c f hgap hscan =>
    rintro _ ⟨⟩
    exact ⟨before, gap, c, rest, f, rfl, rfl, hgap, hscan, rfl⟩
  | last => simp
  | @token before gap rest t ts e _ hplace _ _ _ ih =>
    intro x hx
    obtain ⟨cs, gap', c, tail, f, hsource, hbehind, hrest⟩ := ih x hx
    refine ⟨cs, gap', c, tail, f, by simpa using hsource, ?_, hrest⟩
    rw [hbehind, List.getLast?_cons]
    cases ts.getLast? with
    | some u => rfl
    | none =>
      show (Position.behind (before ++ gap ++ t.lexeme.toList)).offset =
        t.position.offset + t.lexeme.utf8ByteSize
      rw [Position.offset_behind_append, hplace, String.ofList_toList]

end Along

/-- In a source whose characters and one more can be counted in 32 bits, a cursor of such words has
at every token and at an error the line and the column of its place. -/
theorem words_of_tokensFrom {source : String} (h : source.length + 1 < UInt32.size) (keep : Bool) :
    (∀ t ∈ (tokensFrom keep (.ofSource source)).1, ∃ before,
        before ++ t.lexeme.toList <+: source.toList ∧
          (Position.Words.behind before).Tell t.position) ∧
      ∀ e ∈ (tokensFrom keep (.ofSource source)).2, ∃ before, before <+: source.toList ∧
        (Position.Words.behind before).Tell e.position := by
  have halong : Along keep [] source.toList _ _ := along_tokensFrom keep (.ofSource source) [] rfl
  rw [← String.length_toList] at h
  constructor
  · intro t ht
    obtain ⟨before, -, hslice, hplace⟩ := halong.exists_before t ht
    rw [hplace]
    exact ⟨before, hslice, Position.behind_tell ((List.prefix_append _ _).trans hslice) h⟩
  · intro e he
    obtain ⟨before, gap, c, rest, f, hsource, -, -, -, rfl⟩ := halong.error_eq e he
    have hprefix : before ++ (gap ++ (c :: rest).take f.before) <+: source.toList := by
      rw [List.nil_append] at hsource
      rw [hsource, List.prefix_append_right_inj, List.prefix_append_right_inj]
      exact List.take_prefix _ _
    exact ⟨_, hprefix, Position.behind_tell hprefix h⟩

def items (ts : List Token) (e : Option LexError) : List (Except LexError Token) :=
  ts.map Except.ok ++ e.toList.map Except.error

namespace Session

end Session

end Lexer
end Attest
