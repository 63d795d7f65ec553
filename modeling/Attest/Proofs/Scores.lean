import Attest.Proofs.ByName
import Attest.Proofs.Outcome
import Attest.Scores

/-!
Scores by name.

A list of named scores is read if it is the entries of some scores in any order, and then it gives
those.  So it does not matter in which order they come, and no score can take another's place.  Only
where there is more than one fault does the order decide which of them is reported.
-/

namespace Attest
namespace Scores

variable {es : List (String × UInt64)} {s : Scores}

theorem map_fst_entries (s : Scores) : s.entries.map (·.1) = names := rfl

theorem nodup_names : names.Nodup := by decide

/-- Every name is that of a score, and none comes twice or was seen before. -/
theorem misnamed?_eq_none_iff {seen ns : List String} :
    misnamed? seen ns = none ↔ ns.Nodup ∧ ∀ n ∈ ns, n ∈ names ∧ n ∉ seen := by
  induction ns generalizing seen with
  | nil => simp [misnamed?]
  | cons n ns ih =>
    rw [misnamed?, List.nodup_cons, List.forall_mem_cons]
    by_cases hname : n ∈ names
    · by_cases hseen : n ∈ seen
      · simp [hname, hseen]
      · -- The names behind must differ from this one too, which is now among those seen.
        have hbehind : (∀ k ∈ ns, k ∈ names ∧ k ∉ n :: seen) ↔
            n ∉ ns ∧ ∀ k ∈ ns, k ∈ names ∧ k ∉ seen := by
          simp only [List.mem_cons, not_or]
          constructor
          · intro h
            exact ⟨fun hmem => (h n hmem).2.1 rfl, fun k hk => ⟨(h k hk).1, (h k hk).2.2⟩⟩
          · rintro ⟨hnot, h⟩ k hk
            exact ⟨(h k hk).1, fun heq => hnot (heq ▸ hk), (h k hk).2⟩
        rw [if_neg (by simpa using hname), if_neg (by simpa using hseen), ih, hbehind]
        tauto
    · simp [hname]

theorem score_eq_ok_iff {name : String} {v : UInt64} :
    score es name = .ok v ↔ es.lookup name = some v := by
  unfold score
  cases es.lookup name with
  | none => simp
  | some w => simp

theorem ofEntries_eq_ok_iff_lookup : ofEntries es = .ok s ↔
    misnamed? [] (es.map (·.1)) = none ∧ ∀ e ∈ s.entries, es.lookup e.1 = some e.2 := by
  unfold ofEntries
  cases hnames : misnamed? [] (es.map (·.1)) with
  | some e => simp
  | none =>
    simp only [Outcome.bind_eq_ok, score_eq_ok_iff, Outcome.pure_eq_ok, true_and]
    constructor
    · rintro ⟨layout, hlayout, context, hcontext, evidence, hevidence, reasoning, hreasoning,
        clarity, hclarity, h⟩
      cases h
      simp [entries, names, values, hlayout, hcontext, hevidence, hreasoning, hclarity]
    · intro h
      simp only [entries, names, values, List.zip_cons_cons, List.zip_nil_left,
        List.forall_mem_cons] at h
      obtain ⟨hlayout, hcontext, hevidence, hreasoning, hclarity, -⟩ := h
      exact ⟨_, hlayout, _, hcontext, _, hevidence, _, hreasoning, _, hclarity, rfl⟩

theorem misnamed?_eq_none_of_perm (h : (es.map (·.1)).Perm names) :
    misnamed? [] (es.map (·.1)) = none := by
  rw [misnamed?_eq_none_iff]
  exact ⟨h.nodup_iff.mpr nodup_names, fun n hn => ⟨h.mem_iff.mp hn, List.not_mem_nil⟩⟩

theorem ofEntries_eq_ok_iff : ofEntries es = .ok s ↔ es.Perm s.entries := by
  rw [ofEntries_eq_ok_iff_lookup]
  constructor
  · rintro ⟨hnames, hlookup⟩
    obtain ⟨hnodup, hknown⟩ := misnamed?_eq_none_iff.mp hnames
    have hsub : ∀ e ∈ s.entries, e ∈ es := fun e he =>
      (ByName.lookup_eq_some_iff hnodup).mp (hlookup e he)
    refine (List.perm_ext_iff_of_nodup hnodup.of_map ?_).mpr fun e => ⟨fun he => ?_, hsub e⟩
    · exact List.Nodup.of_map Prod.fst (map_fst_entries s ▸ nodup_names)
    · -- The entry of that name among the scores is in the list as well, and it is the only one.
      have hname : e.1 ∈ s.entries.map (·.1) := (hknown e.1 (List.mem_map_of_mem he)).1
      obtain ⟨e', he', heq⟩ := List.mem_map.mp hname
      have hvalue : some e'.2 = some e.2 := by
        rw [← hlookup e' he', heq]
        exact (ByName.lookup_eq_some_iff hnodup).mpr he
      rwa [← Prod.ext heq (Option.some.inj hvalue)]
  · intro h
    have hperm : (es.map (·.1)).Perm names := h.map (·.1)
    refine ⟨misnamed?_eq_none_of_perm hperm, fun e he => ?_⟩
    exact (ByName.lookup_eq_some_iff (hperm.nodup_iff.mpr nodup_names)).mpr (h.mem_iff.mpr he)

theorem exists_ofEntries_iff : (∃ s, ofEntries es = .ok s) ↔ (es.map (·.1)).Perm names := by
  constructor
  · rintro ⟨s, hs⟩
    exact (ofEntries_eq_ok_iff.mp hs).map (·.1)
  · intro h
    have hvalue : ∀ n ∈ names, ∃ v, es.lookup n = some v := fun n hn => by
      obtain ⟨e, he, rfl⟩ := List.mem_map.mp (h.mem_iff.mpr hn)
      exact ⟨e.2, (ByName.lookup_eq_some_iff (h.nodup_iff.mpr nodup_names)).mpr he⟩
    simp only [names, List.forall_mem_cons] at hvalue
    obtain ⟨⟨layout, hlayout⟩, ⟨context, hcontext⟩, ⟨evidence, hevidence⟩, ⟨reasoning, hreasoning⟩,
      ⟨clarity, hclarity⟩, -⟩ := hvalue
    refine ⟨⟨layout, context, evidence, reasoning, clarity⟩, ofEntries_eq_ok_iff_lookup.mpr
      ⟨misnamed?_eq_none_of_perm h, ?_⟩⟩
    simp [entries, names, values, hlayout, hcontext, hevidence, hreasoning, hclarity]

theorem ofEntries_of_misnamed? {e : ScoresError} (h : misnamed? [] (es.map (·.1)) = some e) :
    ofEntries es = .error e := by
  unfold ofEntries
  rw [h]

section Faults

variable {ns ms seen : List String} {e : ScoresError}

/-- What is wrong with names in whatever order they come: one is the name of no score, or a score
is named more than once. -/
inductive Fault (ns : List String) : ScoresError → Prop where
  | unknown {n : String} (hn : n ∈ ns) (hname : n ∉ names) : Fault ns (.unknown n)
  | twice {n : String} (hname : n ∈ names) (hcount : 1 < ns.count n) : Fault ns (.twice n)

theorem Fault.perm (h : Fault ns e) (hperm : ns.Perm ms) : Fault ms e := by
  cases h with
  | unknown hn hname => exact .unknown (hperm.mem_iff.mp hn) hname
  | twice hname hcount => exact .twice hname (hperm.count_eq _ ▸ hcount)

theorem fault_of_misnamed? (h : misnamed? seen ns = some e) : Fault (seen ++ ns) e := by
  induction ns generalizing seen with
  | nil => cases h
  | cons n ns ih =>
    rw [misnamed?] at h
    split at h
    · next hname =>
      cases h
      exact .unknown (by simp) (by simpa using hname)
    · next hname =>
      split at h
      · next hseen =>
        cases h
        have hbefore : 0 < seen.count n := List.count_pos_iff.mpr (by simpa using hseen)
        refine .twice (by simpa using hname) ?_
        rw [List.count_append, List.count_cons_self]
        omega
      · exact (ih h).perm List.perm_middle.symm

theorem misnamed?_eq_none_iff_fault : misnamed? [] ns = none ↔ ∀ e, ¬ Fault ns e := by
  constructor
  · intro h e hfault
    obtain ⟨hnodup, hnames⟩ := misnamed?_eq_none_iff.mp h
    cases hfault with
    | unknown hn hname => exact hname (hnames _ hn).1
    | twice hname hcount => exact Nat.not_lt.mpr (List.nodup_iff_count_le_one.mp hnodup _) hcount
  · intro h
    cases hnames : misnamed? [] ns with
    | none => rfl
    | some e => exact absurd (fault_of_misnamed? hnames) (h e)

end Faults

/-- Pairs with a fault can be put into an order in which it is the first to be seen. -/
theorem exists_perm_of_fault {e : ScoresError} (h : Fault (es.map (·.1)) e) :
    ∃ fs, fs.Perm es ∧ ofEntries fs = .error e := by
  cases h with
  | unknown hn hname =>
    obtain ⟨p, hp, rfl⟩ := List.mem_map.mp hn
    refine ⟨p :: es.erase p, (List.perm_cons_erase hp).symm, ofEntries_of_misnamed? ?_⟩
    simp [misnamed?, hname]
  | @twice n hname hcount =>
    obtain ⟨p, hp, rfl⟩ := List.mem_map.mp (List.count_pos_iff.mp (Nat.zero_lt_of_lt hcount))
    have hfirst := List.perm_cons_erase hp
    -- Without the first pair of that name there is another one.
    have hrest : 0 < ((es.erase p).map (·.1)).count p.1 := by
      rw [(hfirst.map _).count_eq, List.map_cons, List.count_cons_self] at hcount
      omega
    obtain ⟨q, hq, hqp⟩ := List.mem_map.mp (List.count_pos_iff.mp hrest)
    refine ⟨p :: q :: (es.erase p).erase q, ?_, ofEntries_of_misnamed? ?_⟩
    · exact (((List.perm_cons_erase hq).cons p).symm).trans hfirst.symm
    · simp [misnamed?, hname, hqp]

/-- Without a fault, all that there is to read is looked up by name. -/
theorem ofEntries_of_perm {fs : List (String × UInt64)} (hperm : fs.Perm es)
    (h : misnamed? [] (es.map (·.1)) = none) : ofEntries fs = ofEntries es := by
  obtain ⟨hnodup, -⟩ := misnamed?_eq_none_iff.mp h
  have hfs : misnamed? [] (fs.map (·.1)) = none := by
    rw [misnamed?_eq_none_iff_fault] at h ⊢
    exact fun e hfault => h e (hfault.perm (hperm.map _))
  have hscore (name : String) : score fs name = score es name := by
    unfold score
    rw [ByName.lookup_perm hperm ((hperm.map _).nodup_iff.mpr hnodup)]
  unfold ofEntries
  simp only [h, hfs, hscore]

/-- Named scores are read just if their names are the five in some order, and the entries of scores
give these in every order.  What comes of the pairs, with the error if they are refused, is the same
in every order just if there are no two different faults in their names. -/
theorem ofEntries_order_free_iff (es : List (String × UInt64)) :
    ((∃ s, ofEntries es = .ok s) ↔ (es.map (·.1)).Perm names) ∧
      ((∀ fs, fs.Perm es → ofEntries fs = ofEntries es) ↔
        ∀ e f, Fault (es.map (·.1)) e → Fault (es.map (·.1)) f → e = f) ∧
      ∀ s fs, fs.Perm (entries s) → ofEntries fs = .ok s := by
  refine ⟨exists_ofEntries_iff, ⟨fun hfree e f he hf => ?_, fun hone fs hperm => ?_⟩,
    fun s fs hfs => ofEntries_eq_ok_iff.mpr hfs⟩
  · obtain ⟨fs, hfs, hfirst⟩ := exists_perm_of_fault he
    obtain ⟨gs, hgs, hsecond⟩ := exists_perm_of_fault hf
    rw [hfree fs hfs, ← hfree gs hgs, hsecond] at hfirst
    exact (Except.error.inj hfirst).symm
  · cases hnames : misnamed? [] (es.map (·.1)) with
    | none => exact ofEntries_of_perm hperm hnames
    | some e =>
      have he : Fault (es.map (·.1)) e := fault_of_misnamed? hnames
      cases hnames' : misnamed? [] (fs.map (·.1)) with
      | none => exact absurd (he.perm (hperm.map _).symm) (misnamed?_eq_none_iff_fault.mp hnames' e)
      | some f =>
        have hf : Fault (fs.map (·.1)) f := fault_of_misnamed? hnames'
        rw [ofEntries_of_misnamed? hnames, ofEntries_of_misnamed? hnames',
          hone e f he (hf.perm (hperm.map _))]

/-- Five scores, the last of them first. -/
def clarityFirst : List (String × UInt64) :=
  [("clarity", 5), ("structure", 1), ("context", 2), ("evidence", 3), ("reasoning", 4)]

theorem clarityFirst_order_free :
    (∃ s, ofEntries clarityFirst = .ok s) ∧
      ofEntries clarityFirst.reverse = ofEntries clarityFirst ∧
      clarityFirst.Perm (entries ⟨1, 2, 3, 4, 5⟩) ∧
      ofEntries clarityFirst = .ok ⟨1, 2, 3, 4, 5⟩ := by
  have hperm : clarityFirst.Perm (entries ⟨1, 2, 3, 4, 5⟩) := by decide
  have hnone : ∀ e, ¬ Fault (clarityFirst.map (·.1)) e := misnamed?_eq_none_iff_fault.mp (by decide)
  obtain ⟨hread, hfree, hback⟩ := ofEntries_order_free_iff clarityFirst
  exact ⟨hread.mpr (by decide), hfree.mpr (fun e f he => absurd he (hnone e)) _
    clarityFirst.reverse_perm, hperm, hback _ _ hperm⟩

/-- Of an unknown name and a name given twice, the one that is seen first is reported. -/
theorem ofEntries_reordered :
    [("structure", 1), ("structure", 2), ("tone", 3)].Perm
        [("tone", 3), ("structure", 1), ("structure", (2 : UInt64))] ∧
      ofEntries [("structure", 1), ("structure", 2), ("tone", 3)] = .error (.twice "structure") ∧
      ofEntries [("tone", 3), ("structure", 1), ("structure", 2)] = .error (.unknown "tone") := by
  decide

end Scores
end Attest
