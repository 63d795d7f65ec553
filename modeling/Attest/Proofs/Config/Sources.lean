import Attest.Config.Document
import Attest.Config.Environment
import Attest.Proofs.ByName
import Attest.Proofs.Outcome

/-!
Where settings come from.

A configuration is made step by step, and each step is a number of changes.  What a document or a
variable overrides is recorded setting by setting, and a later source replaces an earlier one, even
if it says the same value again.  What a function adjusts is recorded for its section as a whole,
under a path that no setting has and that is not looked at when the source of a setting is asked
for.  So that source is the one that last gave the setting another value, unless this was a
function, or unless another source has repeated the value since.
-/

namespace Attest

namespace Setting

theorem path_injective {k l : Setting} (h : k.path = l.path) : k = l := by
  revert h
  cases k <;> cases l <;> decide

theorem path_ne_section (k : Setting) (home : Section) : k.path ≠ home.path := by
  cases k <;> cases home <;> decide

end Setting

theorem Settings.get_set_of_ne (s : Settings) {k l : Setting} (v : SettingValue) (h : k ≠ l) :
    (s.set l v).get k = s.get k := by
  cases l <;> cases v <;> cases k <;> simp [set, get] at h ⊢

namespace Config

inductive Change where
  /-- All settings become those of a preset. -/
  | preset (p : Preset)
  /-- A document from some place overrides a setting. -/
  | document (place : String) (o : Override)
  /-- A variable of the environment overrides a setting. -/
  | environment (name : String) (o : Override)
  /-- The settings of a section become those that a function gives. -/
  | adjust (home : Section) (f : Settings → Settings)

namespace Change

def source : Change → Source
  | preset p => .preset p
  | document place _ => .yaml place
  | environment name _ => .env name
  | adjust _ _ => .builder

def isAdjust : Change → Bool
  | adjust _ _ => true
  | _ => false

def apply (c : Config) : Change → Config
  | preset p => ofPreset p
  | document place o => c.override (.yaml place) o
  | environment name o => c.override (.env name) o
  | adjust home f => c.adjust home (home.settings.map fun k => ⟨k, (f c.settings).get k⟩)

/-- Whether a change gives a setting another value than it has. -/
def alters (k : Setting) (c : Config) (change : Change) : Bool :=
  (change.apply c).settings.get k != c.settings.get k

def isPreset : Change → Bool
  | preset _ => true
  | _ => false

/-- Whether a change says the value of a setting, be it another one or the same again. -/
def names (k : Setting) : Change → Bool
  | preset _ => false
  | document _ o => o.setting == k
  | environment _ o => o.setting == k
  | adjust _ _ => false

end Change

def after (c : Config) (changes : List Change) : Config := changes.foldl Change.apply c

theorem after_append (c : Config) (changes more : List Change) :
    c.after (changes ++ more) = (c.after changes).after more := List.foldl_append

/-- The last of some changes that alters a setting, and the changes behind it. -/
def lastAltering (k : Setting) : Config → List Change → Option (Change × List Change)
  | _, [] => none
  | c, change :: rest =>
    (lastAltering k (change.apply c) rest).or
      (if change.alters k c then some (change, rest) else none)

/-- The last of some changes that says the value of a setting. -/
def lastNaming (k : Setting) (changes : List Change) : Option Change :=
  (changes.filter (·.names k)).getLast?

section Records

variable {k : Setting} {c : Config} {change : Change}

theorem sourceOf_override (c : Config) (source : Source) (o : Override) (k : Setting) :
    (c.override source o).sourceOf k.path =
      if o.setting = k then source else c.sourceOf k.path := by
  unfold sourceOf override
  rw [ByName.get?_set]
  by_cases h : o.setting = k
  · rw [if_pos h, if_pos (congrArg Setting.path h.symm)]
    rfl
  · rw [if_neg h, if_neg fun hpath => h (Setting.path_injective hpath.symm)]

/-- What is recorded for a section is not found under the path of a setting. -/
theorem sourceOf_adjust (c : Config) (home : Section) (os : List Override) (k : Setting) :
    (c.adjust home os).sourceOf k.path = c.sourceOf k.path := by
  unfold sourceOf adjust
  rw [ByName.get?_set, if_neg (Setting.path_ne_section k home)]

theorem get_override_of_ne {o : Override} (h : (o.setting == k) = false) (source : Source) :
    (c.override source o).settings.get k = c.settings.get k :=
  Settings.get_set_of_ne _ _ (Ne.symm (ne_of_beq_false h))

theorem sourceOf_apply (hpreset : change.isPreset = false) :
    (change.apply c).sourceOf k.path =
      if change.names k then change.source else c.sourceOf k.path := by
  cases change with
  | preset p => cases hpreset
  | document place o =>
    simp only [Change.names, beq_iff_eq]
    exact sourceOf_override ..
  | environment name o =>
    simp only [Change.names, beq_iff_eq]
    exact sourceOf_override ..
  | adjust home f => exact sourceOf_adjust ..

/-- A change other than a preset and an adjustment alters at most the setting that it names. -/
theorem names_of_alters (h : change.alters k c = true) (hpreset : change.isPreset = false)
    (hadjust : change.isAdjust = false) : change.names k = true := by
  cases change with
  | preset p => cases hpreset
  | adjust home f => cases hadjust
  | _ =>
    by_contra hnames
    exact bne_iff_ne.mp h (get_override_of_ne (eq_false_of_ne_true hnames) _)

theorem sourceOf_apply_ne_builder (h : c.sourceOf k.path ≠ .builder) :
    (change.apply c).sourceOf k.path ≠ .builder := by
  cases change with
  | preset p => exact Source.noConfusion
  | adjust home f =>
    rw [Change.apply, sourceOf_adjust]
    exact h
  | _ =>
    rw [sourceOf_apply rfl]
    split
    · exact Source.noConfusion
    · exact h

theorem sourceOf_after_ne_builder (h : c.sourceOf k.path ≠ .builder) (changes : List Change) :
    (c.after changes).sourceOf k.path ≠ .builder := by
  induction changes generalizing c with
  | nil => exact h
  | cons change rest ih => exact ih (sourceOf_apply_ne_builder h)

/-- The record holds the last change that says the value. -/
theorem sourceOf_after {changes : List Change} (hpreset : ∀ d ∈ changes, d.isPreset = false) :
    (c.after changes).sourceOf k.path =
      ((lastNaming k changes).map Change.source).getD (c.sourceOf k.path) := by
  induction changes generalizing c with
  | nil => rfl
  | cons change rest ih =>
    obtain ⟨hfirst, hrest⟩ := List.forall_mem_cons.mp hpreset
    show ((change.apply c).after rest).sourceOf k.path = _
    rw [ih hrest, sourceOf_apply hfirst, lastNaming, lastNaming, List.filter_cons]
    split
    · rw [List.getLast?_cons]
      cases (rest.filter (·.names k)).getLast? with
      | none => rfl
      | some last => rfl
    · rfl

/-- A setting has the value that the preset gives it. -/
def AtPreset (k : Setting) (c : Config) : Prop := c.settings.get k = c.preset.settings.get k

theorem atPreset_apply (h : change.alters k c = false)
    (hc : change.isPreset = true ∨ AtPreset k c) : AtPreset k (change.apply c) := by
  replace h : (change.apply c).settings.get k = c.settings.get k := bne_eq_false_iff_eq.mp h
  cases change with
  | preset p => rfl
  | _ =>
    rcases hc with hc | hc
    · cases hc
    · exact h.trans hc

/-- Changes that do not alter a setting leave it at the preset's value, and if one of them is a
preset it is there already. -/
theorem atPreset_after {changes : List Change} (h : lastAltering k c changes = none)
    (hc : AtPreset k c ∨ ∃ d ∈ changes, d.isPreset = true) : AtPreset k (c.after changes) := by
  induction changes generalizing c with
  | nil =>
    rcases hc with hc | ⟨d, hd, -⟩
    · exact hc
    · cases hd
  | cons change rest ih =>
    obtain ⟨hrest, hfirst⟩ := Option.or_eq_none_iff.mp h
    have halters : change.alters k c = false := by
      by_contra hne
      rw [if_pos (eq_true_of_ne_false hne)] at hfirst
      cases hfirst
    refine ih hrest ?_
    rcases hc with hc | ⟨d, hd, hpreset⟩
    · exact .inl (atPreset_apply halters (.inr hc))
    · rcases List.mem_cons.mp hd with rfl | hd
      · exact .inl (atPreset_apply halters (.inl hpreset))
      · exact .inr ⟨d, hd, hpreset⟩

theorem isPreset_of_differs {changes : List Change} (h : lastAltering k c changes = none)
    (hdiffers : ¬ AtPreset k (c.after changes)) : ∀ d ∈ changes, d.isPreset = false := by
  intro d hd
  by_contra hne
  exact hdiffers (atPreset_after h (.inr ⟨d, hd, eq_true_of_ne_false hne⟩))

/-- Behind the last change that alters a setting, no other does. -/
theorem lastAltering_eq_some {changes rest : List Change}
    (h : lastAltering k c changes = some (change, rest)) :
    ∃ before, changes = before ++ change :: rest ∧ change.alters k (c.after before) = true ∧
      lastAltering k (change.apply (c.after before)) rest = none := by
  induction changes generalizing c with
  | nil => cases h
  | cons first changes ih =>
    rw [lastAltering] at h
    cases hlater : lastAltering k (first.apply c) changes with
    | some later =>
      rw [hlater] at h
      cases h
      obtain ⟨before, rfl, halters, hnone⟩ := ih hlater
      exact ⟨first :: before, rfl, halters, hnone⟩
    | none =>
      rw [hlater] at h
      cases halters : first.alters k c with
      | false =>
        rw [halters] at h
        cases h
      | true =>
        rw [halters] at h
        cases h
        exact ⟨[], rfl, halters, hlater⟩

/-- Where a setting differs from the preset, the record names the change that altered it last if
this was no adjustment, and if the last one to say the same value again has the same source. -/
theorem sourceOf_after_iff {changes rest : List Change} (hc : c.sourceOf k.path ≠ .builder)
    (h : lastAltering k c changes = some (change, rest))
    (hdiffers : ¬ AtPreset k (c.after changes)) :
    (c.after changes).sourceOf k.path = change.source ↔
      change.isAdjust = false ∧ ∀ again ∈ lastNaming k rest, again.source = change.source := by
  cases hadjust : change.isAdjust with
  | true =>
    have hbuilder : change.source = .builder := by
      cases change with
      | adjust home f => rfl
      | _ => cases hadjust
    -- Nothing that is recorded for a setting has a function for its source.
    refine iff_of_false ?_ fun hand => Bool.noConfusion hand.1
    rw [hbuilder]
    exact sourceOf_after_ne_builder hc changes
  | false =>
    obtain ⟨before, rfl, halters, hnone⟩ := lastAltering_eq_some h
    have hsplit : c.after (before ++ change :: rest) =
        (change.apply (c.after before)).after rest := after_append c before (change :: rest)
    rw [hsplit] at hdiffers ⊢
    -- There is no preset from this change on, or the setting would be where the preset put it.
    have hpreset : change.isPreset = false := by
      cases change with
      | preset p => exact absurd (atPreset_after hnone (.inl rfl)) hdiffers
      | _ => rfl
    rw [sourceOf_after (isPreset_of_differs hnone hdiffers), sourceOf_apply hpreset,
      if_pos (names_of_alters halters hpreset hadjust)]
    cases lastNaming k rest with
    | none => simp
    | some again => simp

end Records

inductive Step where
  | preset (p : Preset)
  | document (text place : String)
  | environment (vars : List (String × String))
  | adjust (home : Section) (f : Settings → Settings)

namespace Step

def run (c : Config) : Step → Except ConfigError Config
  | preset p => .ok (ofPreset p)
  | document text place => ofYaml text place
  | environment vars => c.applyEnvironment vars
  | adjust home f => .ok ((Change.adjust home f).apply c)

/-- The changes that a step is made of, if it does not fail.  A document starts anew from its
preset, and every variable is a source of its own. -/
def changes : Step → List Change
  | preset p => [.preset p]
  | document text place => (Yaml.parse text >>= Parts.ofYaml).toList.flatMap fun parts =>
      (Preset.ofName? parts.preset).toList.map .preset ++ parts.overrides.map (.document place)
  | environment vars => (relevant vars).flatMap fun v =>
      (overrideOf (String.ofList (v.1.toList.drop environmentMark.length))
        (Text.trim v.2)).toOption.toList.map (.environment v.1)
  | adjust home f => [.adjust home f]

end Step

section Runs

variable {c d : Config}

theorem after_document {text place : String} (h : ofYaml text place = .ok d) :
    c.after (Step.document text place).changes = d := by
  unfold ofYaml at h
  show c.after ((Yaml.parse text >>= Parts.ofYaml).toList.flatMap _) = d
  cases hparts : Yaml.parse text >>= Parts.ofYaml with
  | none =>
    rw [hparts] at h
    cases h
  | some parts =>
    rw [hparts] at h
    dsimp only at h
    split at h
    · cases h
    · cases hpreset : Preset.ofName? parts.preset with
      | none =>
        rw [hpreset] at h
        cases h
      | some p =>
        rw [hpreset] at h
        cases h
        simp only [Option.toList_some, List.flatMap_singleton, hpreset, List.map_cons, List.map_nil,
          List.singleton_append, after, List.foldl_cons, List.foldl_map]
        rfl

theorem after_environment {vars : List (String × String)} (h : c.applyEnvironment vars = .ok d) :
    c.after (Step.environment vars).changes = d := by
  unfold applyEnvironment at h
  rw [Step.changes]
  generalize relevant vars = vars at h
  induction vars generalizing c with
  | nil =>
    cases h
    rfl
  | cons v vars ih =>
    rw [List.foldlM_cons] at h
    obtain ⟨c', hfirst, hrest⟩ := Outcome.bind_eq_ok.mp h
    obtain ⟨o, ho, hc'⟩ := Outcome.bind_eq_ok.mp hfirst
    cases hc'
    rw [List.flatMap_cons, after_append, ho]
    exact ih hrest

/-- A step that does not fail makes its changes. -/
theorem after_changes {step : Step} (h : step.run c = .ok d) : c.after step.changes = d := by
  cases step with
  | preset p => exact Except.ok.inj h
  | document text place => exact after_document h
  | environment vars => exact after_environment h
  | adjust home f => exact Except.ok.inj h

theorem after_flatMap_changes {steps : List Step} (h : steps.foldlM Step.run c = .ok d) :
    c.after (steps.flatMap Step.changes) = d := by
  induction steps generalizing c with
  | nil => exact Except.ok.inj h
  | cons step steps ih =>
    rw [List.foldlM_cons] at h
    obtain ⟨c', hfirst, hrest⟩ := Outcome.bind_eq_ok.mp h
    rw [List.flatMap_cons, after_append, after_changes hfirst]
    exact ih hrest

end Runs

/-- How true the record is.  Where a setting differs from the preset, some change gave it another
value last.  The source that is given for the setting is the source of that change if and only if
the change was no adjustment by a function and, where the value has been said again since, this was
last done by the same source. -/
theorem sourceOf_truthful_iff {steps : List Step} {c : Config}
    (h : steps.foldlM Step.run default = .ok c) (k : Setting)
    (hdiffers : c.settings.get k ≠ c.preset.settings.get k) :
    after default (steps.flatMap Step.changes) = c ∧
      ∃ change rest, lastAltering k default (steps.flatMap Step.changes) = some (change, rest) ∧
        (c.sourceOf k.path = change.source ↔
          change.isAdjust = false ∧ ∀ again ∈ lastNaming k rest, again.source = change.source) := by
  have hafter := after_flatMap_changes h
  refine ⟨hafter, ?_⟩
  rw [← hafter] at hdiffers ⊢
  cases hlast : lastAltering k default (steps.flatMap Step.changes) with
  | none => exact absurd (atPreset_after hlast (.inl rfl)) hdiffers
  | some last =>
    have hdefault : (default : Config).sourceOf k.path ≠ .builder := Source.noConfusion
    exact ⟨last.1, last.2, rfl, sourceOf_after_iff hdefault hlast hdiffers⟩

/-- A variable overrides the number of tokens, and then a function changes it. -/
def countsTokens : List Step :=
  [.preset .strict, .environment [("PROVQL__LIMITS__MAX_TOKENS", "42")],
    .adjust .limits fun s => { s with maxTokens := 100 }]

/-- What they make: the number is the function's, and the source that is given for it is still the
variable. -/
def hundredTokens : Config :=
  ⟨.strict, { Preset.strict.settings with maxTokens := 100 },
    [("limits.*", .builder), ("limits.max_tokens", .env "PROVQL__LIMITS__MAX_TOKENS")]⟩

/-- Two variables of which the second says the number of the first again. -/
def repeatsTokens : List Step :=
  [.preset .strict, .environment [("PROVQL__LIMITS__MAX_TOKENS", "42")],
    .environment [("PROVQL__limits__max_tokens", "42")]]

def fortyTwoTokens : Config :=
  ⟨.strict, { Preset.strict.settings with maxTokens := 42 },
    [("limits.max_tokens", .env "PROVQL__limits__max_tokens")]⟩

theorem sourceOf_hundredTokens :
    (countsTokens.foldlM Step.run default = .ok hundredTokens ∧
      hundredTokens.settings.get .maxTokens ≠ hundredTokens.preset.settings.get .maxTokens ∧
      hundredTokens.sourceOf Setting.maxTokens.path = .env "PROVQL__LIMITS__MAX_TOKENS" ∧
      ∃ change rest, lastAltering .maxTokens default (countsTokens.flatMap Step.changes) =
          some (change, rest) ∧ change.source = .builder ∧
        hundredTokens.sourceOf Setting.maxTokens.path ≠ change.source) ∧
    repeatsTokens.foldlM Step.run default = .ok fortyTwoTokens ∧
      ∃ change rest, lastAltering .maxTokens default (repeatsTokens.flatMap Step.changes) =
          some (change, rest) ∧ change.source = .env "PROVQL__LIMITS__MAX_TOKENS" ∧
        fortyTwoTokens.sourceOf Setting.maxTokens.path ≠ change.source := by
  have hcounts : countsTokens.foldlM Step.run default = .ok hundredTokens := rfl
  have hhundred : hundredTokens.settings.get .maxTokens ≠
      hundredTokens.preset.settings.get .maxTokens := by decide
  have hadjust : lastAltering .maxTokens default (countsTokens.flatMap Step.changes) =
      some (.adjust .limits fun s => { s with maxTokens := 100 }, []) := rfl
  have hrepeats : repeatsTokens.foldlM Step.run default = .ok fortyTwoTokens := rfl
  have hfortyTwo : fortyTwoTokens.settings.get .maxTokens ≠
      fortyTwoTokens.preset.settings.get .maxTokens := by decide
  have hvariable : lastAltering .maxTokens default (repeatsTokens.flatMap Step.changes) =
      some (.environment "PROVQL__LIMITS__MAX_TOKENS" ⟨.maxTokens, .number 42⟩,
        [.environment "PROVQL__limits__max_tokens" ⟨.maxTokens, .number 42⟩]) := rfl
  refine ⟨⟨hcounts, hhundred, rfl, ?_⟩, hrepeats, ?_⟩
  · obtain ⟨-, change, rest, hlast, hiff⟩ := sourceOf_truthful_iff hcounts .maxTokens hhundred
    refine ⟨change, rest, hlast, ?_⟩
    rw [hadjust] at hlast
    cases hlast
    exact ⟨rfl, fun hsource => Bool.noConfusion (hiff.mp hsource).1⟩
  · obtain ⟨-, change, rest, hlast, hiff⟩ := sourceOf_truthful_iff hrepeats .maxTokens hfortyTwo
    refine ⟨change, rest, hlast, ?_⟩
    rw [hvariable] at hlast
    cases hlast
    exact ⟨rfl, fun hsource => absurd ((hiff.mp hsource).2 _ rfl) (by decide)⟩

end Config
end Attest
