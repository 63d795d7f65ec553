import Attest.CertificateCache
import Mathlib.Data.List.Infix

/-!
Certificates and the values they are of.

A minted certificate is one of its value whatever the evidence says, because what is read from a
payload is the text behind the last mark and a fingerprint holds no mark.  A cache that holds
nothing but minted certificates gives one of the value that is asked for, because what a
certificate is looked up by determines it.
-/

namespace Attest

namespace Certificate

/-- The text behind the last place where another occurs. -/
def FollowsLast (needle cs r : List Char) : Prop :=
  ∃ front, cs = front ++ needle ++ r ∧
    ∀ front' r', cs = front' ++ needle ++ r' → r.length ≤ r'.length

theorem afterLast_eq_none {needle cs : List Char} (h : afterLast needle cs = none)
    (hn : needle ≠ []) (front r : List Char) : cs ≠ front ++ needle ++ r := by
  induction cs generalizing front with
  | nil =>
    intro heq
    have := congrArg List.length heq
    have := List.length_pos_iff.mpr hn
    simp only [List.length_nil, List.length_append] at *
    omega
  | cons c rest ih =>
    unfold afterLast at h
    split at h
    · cases h
    · next hrest =>
      split at h
      · cases h
      · next hprefix =>
        intro heq
        cases front with
        | nil =>
          apply hprefix
          rw [List.isPrefixOf_iff_prefix, heq, List.nil_append]
          exact List.prefix_append needle r
        | cons d front =>
          rw [List.cons_append, List.cons_append, List.cons.injEq] at heq
          exact ih hrest front heq.2

theorem followsLast_of_afterLast {needle cs r : List Char} (hn : needle ≠ [])
    (h : afterLast needle cs = some r) : FollowsLast needle cs r := by
  induction cs with
  | nil => cases h
  | cons c rest ih =>
    unfold afterLast at h
    split at h
    · next r₀ hrest =>
      cases h
      obtain ⟨front, hfront, hleast⟩ := ih hrest
      refine ⟨c :: front, by rw [hfront]; rfl, fun front' r' heq => ?_⟩
      cases front' with
      | nil =>
        have hlen := congrArg List.length heq
        have hlen' := congrArg List.length hfront
        simp only [List.length_cons, List.nil_append, List.length_append] at hlen hlen'
        omega
      | cons d front' =>
        rw [List.cons_append, List.cons_append, List.cons.injEq] at heq
        exact hleast front' r' heq.2
    · next hrest =>
      split at h
      · next hprefix =>
        cases h
        obtain ⟨r, hr⟩ := List.isPrefixOf_iff_prefix.mp hprefix
        rw [← hr, List.drop_left]
        refine ⟨[], rfl, fun front' r' heq => ?_⟩
        cases front' with
        | nil => rw [List.append_cancel_left heq]
        | cons d front' =>
          rw [hr, List.cons_append, List.cons_append, List.cons.injEq] at heq
          exact absurd heq.2 (afterLast_eq_none hrest hn front' r')
      · cases h

/-- What is found behind a text is what follows the last place where it occurs. -/
theorem afterLast_eq_some_iff {needle cs r : List Char} (hn : needle ≠ []) :
    afterLast needle cs = some r ↔ FollowsLast needle cs r := by
  refine ⟨followsLast_of_afterLast hn, fun h => ?_⟩
  obtain ⟨front, hfront, hleast⟩ := h
  cases hfound : afterLast needle cs with
  | none => exact absurd hfront (afterLast_eq_none hfound hn front r)
  | some r₀ =>
    obtain ⟨front₀, hfront₀, hleast₀⟩ := followsLast_of_afterLast hn hfound
    have hlen : r₀.length = r.length :=
      Nat.le_antisymm (hleast₀ front r hfront) (hleast front₀ r₀ hfront₀)
    rw [(List.append_inj' (hfront₀.symm.trans hfront) hlen).2]

theorem mark_ne_nil : mark.toList ≠ [] := by decide

/-- A text without the last character of the mark, put behind the mark, is what follows it. -/
theorem afterLast_mark {front r : List Char} (h : '=' ∉ r) :
    afterLast mark.toList (front ++ mark.toList ++ r) = some r := by
  rw [afterLast_eq_some_iff mark_ne_nil]
  refine ⟨front, rfl, fun front' r' heq => ?_⟩
  rcases List.append_eq_append_iff.mp heq with ⟨a, ha, hr⟩ | ⟨a, ha, hr⟩
  · -- a later mark would end inside the text
    have hlast : (front' ++ mark.toList).getLast? = some '=' := by
      rw [List.getLast?_append]
      rfl
    rcases List.eq_nil_or_concat a with rfl | ⟨b, c, rfl⟩
    · rw [hr]
      exact Nat.le_refl _
    · rw [ha, List.concat_eq_append, ← List.append_assoc, List.getLast?_concat] at hlast
      cases hlast
      exact absurd (by rw [hr]; simp) h
  · rw [hr, List.length_append]
    exact Nat.le_add_left _ _

end Certificate

namespace TypedValue

/-- A fingerprint holds hexadecimal digits only. -/
theorem mem_fingerprint {v : TypedValue} {c : Char} (h : c ∈ v.fingerprint.toList) :
    ∃ d : Fin 16, c = Text.hexDigit d := by
  unfold fingerprint Text.hex at h
  rw [String.toList_ofList, String.toList_ofList] at h
  obtain ⟨b, -, hb⟩ := List.mem_flatMap.mp (List.mem_of_mem_take h)
  have hlt : b.toNat < 256 := b.toNat_lt
  rcases List.mem_pair.mp hb with rfl | rfl
  · exact ⟨⟨b.toNat / 16, by omega⟩, rfl⟩
  · exact ⟨⟨b.toNat % 16, by omega⟩, rfl⟩

theorem trim_fingerprint (v : TypedValue) : Text.trim v.fingerprint = v.fingerprint := by
  have hspace : ∀ c ∈ v.fingerprint.toList, Text.isSpace c = false := by
    intro c hc
    obtain ⟨d, rfl⟩ := mem_fingerprint hc
    clear hc
    revert d
    decide
  have hdrop : ∀ cs : List Char, (∀ c ∈ cs, Text.isSpace c = false) →
      cs.dropWhile Text.isSpace = cs := by
    intro cs hcs
    cases cs with
    | nil => rfl
    | cons c rest => simp [hcs c List.mem_cons_self]
  unfold Text.trim Text.trimChars
  rw [hdrop _ hspace, hdrop _ fun c hc => hspace c (List.mem_reverse.mp hc), List.reverse_reverse,
    String.ofList_toList]

end TypedValue

namespace Certificate

theorem mismatch?_eq_none_iff {c : Certificate} {v : TypedValue} :
    c.mismatch? v = none ↔
      c.category = v.ty.category ∧ recorded? c.payload = some v.fingerprint := by
  unfold mismatch?
  split
  · next h => simpa using fun heq => absurd heq (by simpa using h)
  · next h =>
    have hcategory : c.category = v.ty.category := by simpa using h
    split
    · next h => simpa [hcategory] using h
    · next h => simpa [hcategory] using h

/-- What a payload records, by the last place of the mark. -/
theorem recorded?_eq_some_iff {payload fingerprint : String} :
    recorded? payload = some fingerprint ↔
      ∃ r, FollowsLast mark.toList payload.toList r ∧
        Text.trim (String.ofList r) = fingerprint := by
  unfold recorded?
  simp only [Option.map_eq_some_iff, afterLast_eq_some_iff mark_ne_nil]

/-- A minted certificate is one of its value, whatever the evidence says. -/
theorem mismatch?_mint (method : Method) (evidence : String) (v : TypedValue) :
    (mint method evidence v).mismatch? v = none := by
  rw [mismatch?_eq_none_iff]
  refine ⟨rfl, ?_⟩
  have hmark : '=' ∉ v.fingerprint.toList := by
    intro hmem
    obtain ⟨d, hd⟩ := TypedValue.mem_fingerprint hmem
    revert d
    decide
  have hpayload : (mint method evidence v).payload.toList =
      (evidence ++ "; ").toList ++ mark.toList ++ v.fingerprint.toList := by
    simp [mint]
  unfold recorded?
  rw [hpayload, afterLast_mark hmark, Option.map_some, String.ofList_toList,
    TypedValue.trim_fingerprint]

theorem mismatch?_ofValue (v : TypedValue) : (ofValue v).mismatch? v = none := by
  unfold ofValue
  split <;> exact mismatch?_mint _ _ _

end Certificate

namespace Ty

/-- The text of a type is the name of its category, with a parenthesis behind it if anything. -/
theorem render_takeWhile (t : Ty) :
    t.render.toList.takeWhile (· != '(') = t.category.name.toList := by
  cases t with
  | boundedNat lo hi =>
    show ("BoundedNat(" ++ toString lo ++ ", " ++ toString hi ++ ")").toList.takeWhile _ = _
    simp [category, Category.name]
  | boundedFloat lo hi =>
    show ("BoundedFloat(" ++ lo.literal ++ ", " ++ hi.literal ++ ")").toList.takeWhile _ = _
    simp [category, Category.name]
  | vector t n =>
    show ("Vector(" ++ t.render ++ (", " ++ toString n ++ ")")).toList.takeWhile _ = _
    simp [category, Category.name]
  | _ => decide

/-- Types with the same text are of the same category. -/
theorem category_eq_of_render {s t : Ty} (h : s.render = t.render) : s.category = t.category := by
  have hname : s.category.name = t.category.name := by
    apply String.toList_inj.mp
    rw [← render_takeWhile, ← render_takeWhile, h]
  have hinj : ∀ c d : Category, c.name = d.name → c = d := by
    intro c d
    cases c <;> cases d <;> simp [Category.name]
  exact hinj _ _ hname

end Ty

namespace CertificateCache

/-- A cache that holds nothing but minted certificates. -/
def Faithful (c : CertificateCache) : Prop :=
  ∀ e ∈ c.entries, ∃ method evidence v,
    e = (keyOf method evidence v, Certificate.mint method evidence v)

theorem faithful_empty (capacity : Nat) : Faithful { capacity } := by
  intro e he
  cases he

/-- What a minted certificate is looked up by determines it. -/
theorem mint_eq_of_keyOf {m m' : Method} {e e' : String} {v v' : TypedValue}
    (h : keyOf m e v = keyOf m' e' v') : Certificate.mint m e v = Certificate.mint m' e' v' := by
  unfold keyOf at h
  simp only [CertificateKey.mk.injEq] at h
  obtain ⟨rfl, rfl, hty, hvalue⟩ := h
  have hfingerprint : v.fingerprint = v'.fingerprint := by
    unfold TypedValue.fingerprint TypedValue.identity
    rw [hty, hvalue]
  unfold Certificate.mint
  rw [hfingerprint, Ty.category_eq_of_render hty]

theorem mem_of_lookup {key : CertificateKey} {found : Certificate}
    {entries : List (CertificateKey × Certificate)} (h : entries.lookup key = some found) :
    (key, found) ∈ entries := by
  induction entries with
  | nil => cases h
  | cons e entries ih =>
    rw [List.lookup_cons] at h
    split at h
    · next heq =>
      cases h
      rw [eq_of_beq heq]
      exact List.mem_cons_self
    · exact List.mem_cons_of_mem _ (ih h)

/-- A faithful cache gives the minted certificate, new or not, and stays faithful. -/
theorem getOrMint_mint {c : CertificateCache} (hc : c.Faithful) (method : Method)
    (evidence : String) (v : TypedValue) :
    (c.getOrMint method evidence v (Certificate.mint method evidence v)).1 =
        Certificate.mint method evidence v ∧
      (c.getOrMint method evidence v (Certificate.mint method evidence v)).2.2.Faithful := by
  unfold getOrMint
  split
  · exact ⟨rfl, hc⟩
  · dsimp only
    split
    · next found entries htouch =>
      unfold touch at htouch
      obtain ⟨certificate, hlookup, heq⟩ := Option.map_eq_some_iff.mp htouch
      cases heq
      have hmem := mem_of_lookup hlookup
      obtain ⟨m, e, w, hw⟩ := hc _ hmem
      rw [Prod.mk.injEq] at hw
      refine ⟨hw.2.trans (mint_eq_of_keyOf hw.1).symm, fun entry hentry => ?_⟩
      rcases List.mem_cons.mp hentry with rfl | hentry
      · exact hc _ hmem
      · exact hc entry (List.mem_of_mem_filter hentry)
    · refine ⟨rfl, fun entry hentry => ?_⟩
      rcases List.mem_cons.mp (List.mem_of_mem_take hentry) with rfl | hentry
      · exact ⟨method, evidence, v, rfl⟩
      · exact hc entry hentry

end CertificateCache
end Attest
