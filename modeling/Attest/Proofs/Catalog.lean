import Attest.Catalog
import Attest.Proofs.ByName
import Attest.Proofs.Service
import Mathlib.Logic.Function.Basic
import Mathlib.Logic.Relation

/-!
One catalog that many writers update.

A writer takes a lock, reads the catalog, makes a new one of it, puts that in the old one's place
and gives the lock back.  The steps of different writers come in any order, and readers need no
lock.  But nobody else puts a catalog in place while a writer has the lock, so what a writer has
read is still the catalog when it writes.  The updates come out as if each was made at once, in the
order in which their writers got the lock, and a reader sees what the first of them have left.
-/

namespace Attest
namespace Catalog

inductive Update where
  | putSchema (s : Schema)
  | putProfile (p : Profile)
  | removeSchema (name : String)

namespace Update

def apply (c : Catalog) : Update → Except CatalogError Catalog
  | putSchema s => .ok (c.putSchema s)
  | putProfile p => .ok (c.putProfile p)
  | removeSchema name => c.removeSchema name

/-- What an update leaves under the name of a schema, if it is about that name. -/
def schemaAt (name : String) : Update → Option (Option Schema)
  | putSchema s => if name = s.name then some (some s) else none
  | putProfile _ => none
  | removeSchema n => if name = n then some none else none

/-- What an update leaves under a role, if it is about that role. -/
def profileAt (role : String) : Update → Option Profile
  | putSchema _ => none
  | putProfile p => if role = p.role then some p else none
  | removeSchema _ => none

end Update

/-- Every schema is found under its own name, and every profile under its own role. -/
structure Named (c : Catalog) : Prop where
  schemas : ∀ e ∈ c.schemas, e.2.name = e.1
  profiles : ∀ e ∈ c.profiles, e.2.role = e.1

variable {c c' initial : Catalog} {u : Update}

theorem named_ofLists (schemas : List Schema) (profiles : List Profile) :
    (ofLists schemas profiles).Named where
  schemas e he := by
    obtain ⟨s, -, rfl⟩ := List.mem_map.mp (ByName.mem_ofList he)
    rfl
  profiles e he := by
    obtain ⟨p, -, rfl⟩ := List.mem_map.mp (ByName.mem_ofList he)
    rfl

theorem removeSchema_eq_ok {name : String} (h : c.removeSchema name = .ok c') :
    c' = { c with version := c.version.next, schemas := c.schemas.erase name } := by
  unfold removeSchema at h
  split at h
  · cases h
    rfl
  · cases h

/-- What an update that is made changes. -/
structure Made (c : Catalog) (u : Update) (c' : Catalog) : Prop where
  version : c'.version = c.version.next
  schemas : ∀ name, c'.schemas.get? name = (u.schemaAt name).getD (c.schemas.get? name)
  profiles : ∀ role, c'.profiles.get? role = (u.profileAt role).or (c.profiles.get? role)
  named : c.Named → c'.Named

theorem made_of_apply (h : u.apply c = .ok c') : Made c u c' := by
  cases u with
  | putSchema s =>
    cases h
    refine ⟨rfl, fun name => ?_, fun role => rfl, fun hc => ⟨fun e he => ?_, hc.profiles⟩⟩
    · show (c.schemas.set s.name s).get? name = _
      rw [ByName.get?_set, Update.schemaAt]
      split_ifs <;> rfl
    · rcases ByName.mem_set he with rfl | he
      · rfl
      · exact hc.schemas e he
  | putProfile p =>
    cases h
    refine ⟨rfl, fun name => rfl, fun role => ?_, fun hc => ⟨hc.schemas, fun e he => ?_⟩⟩
    · show (c.profiles.set p.role p).get? role = _
      rw [ByName.get?_set, Update.profileAt]
      split_ifs <;> rfl
    · rcases ByName.mem_set he with rfl | he
      · rfl
      · exact hc.profiles e he
  | removeSchema n =>
    rw [removeSchema_eq_ok h]
    refine ⟨rfl, fun name => ?_, fun role => rfl, fun hc => ⟨fun e he => ?_, hc.profiles⟩⟩
    · show (c.schemas.erase n).get? name = _
      rw [ByName.get?_erase, Update.schemaAt]
      split_ifs <;> rfl
    · exact hc.schemas e (List.mem_of_mem_filter he)

/-- Only a removal is refused, of a schema that is not there. -/
theorem eq_removeSchema_of_apply {why : CatalogError} (h : u.apply c = .error why) :
    ∃ name, u = .removeSchema name ∧ why = .schemaNotFound name := by
  cases u with
  | putSchema s => cases h
  | putProfile p => cases h
  | removeSchema name =>
    refine ⟨name, rfl, ?_⟩
    replace h : c.removeSchema name = .error why := h
    unfold removeSchema at h
    split at h
    · cases h
    · cases h
      rfl

/-- Updates, each with the version that it gave or its error. -/
abbrev Log := List (Update × Except CatalogError Version)

def Log.made (log : Log) : List Update := (log.filter (·.2.isOk)).map Prod.fst

theorem Log.made_ok (log : Log) (u : Update) (version : Version) :
    Log.made (log ++ [(u, .ok version)]) = log.made ++ [u] := by
  simp [made, Except.isOk, Except.toBool]

theorem Log.made_error (log : Log) (u : Update) (why : CatalogError) :
    Log.made (log ++ [(u, .error why)]) = log.made := by
  simp [made, Except.isOk, Except.toBool]

/-- Updates that are made one after the other.  One that is refused leaves the catalog as it is. -/
inductive Serial (initial : Catalog) : Log → Catalog → Prop where
  | nil : Serial initial [] initial
  | made {log : Log} {c next : Catalog} {u : Update} (h : Serial initial log c)
      (hu : u.apply c = .ok next) : Serial initial (log ++ [(u, .ok next.version)]) next
  | refused {log : Log} {c : Catalog} {u : Update} {why : CatalogError} (h : Serial initial log c)
      (hu : u.apply c = .error why) : Serial initial (log ++ [(u, .error why)]) c

theorem getLast?_filterMap_concat {α β : Type} (f : α → Option β) (as : List α) (a : α) :
    ((as ++ [a]).filterMap f).getLast? = (f a).or (as.filterMap f).getLast? := by
  rw [List.filterMap_append]
  cases h : f a with
  | none => simp [h]
  | some b => simp [h]

namespace Serial

variable {log : Log}

theorem version (h : Serial initial log c) :
    c.version.number = initial.version.number + UInt64.ofNat log.made.length := by
  induction h with
  | nil => exact (UInt64.add_zero _).symm
  | made _ hu ih =>
    rw [(made_of_apply hu).version, Version.next, ih, Log.made_ok, List.length_append,
      UInt64.ofNat_add, UInt64.add_assoc]
    rfl
  | refused _ _ ih => rw [ih, Log.made_error]

theorem schemas (h : Serial initial log c) (name : String) :
    c.schemas.get? name =
      (log.made.filterMap (·.schemaAt name)).getLast?.getD (initial.schemas.get? name) := by
  induction h with
  | nil => rfl
  | made _ hu ih =>
    rw [(made_of_apply hu).schemas, ih, Log.made_ok, getLast?_filterMap_concat, Option.getD_or]
  | refused _ _ ih => rw [ih, Log.made_error]

theorem profiles (h : Serial initial log c) (role : String) :
    c.profiles.get? role =
      (log.made.filterMap (·.profileAt role)).getLast?.or (initial.profiles.get? role) := by
  induction h with
  | nil => rfl
  | made _ hu ih =>
    rw [(made_of_apply hu).profiles, ih, Log.made_ok, getLast?_filterMap_concat, Option.or_assoc]
  | refused _ _ ih => rw [ih, Log.made_error]

theorem named (h : Serial initial log c) (hinitial : initial.Named) : c.Named := by
  induction h with
  | nil => exact hinitial
  | made _ hu ih => exact (made_of_apply hu).named ih
  | refused _ _ ih => exact ih

theorem refusals (h : Serial initial log c) {why : CatalogError} (hmem : (u, .error why) ∈ log) :
    ∃ name, u = .removeSchema name ∧ why = .schemaNotFound name := by
  induction h with
  | nil => cases hmem
  | made _ _ ih =>
    rcases List.mem_append.mp hmem with hmem | hmem
    · exact ih hmem
    · cases List.mem_singleton.mp hmem
  | refused _ hu ih =>
    rcases List.mem_append.mp hmem with hmem | hmem
    · exact ih hmem
    · cases List.mem_singleton.mp hmem
      exact eq_removeSchema_of_apply hu

end Serial

theorem Named.schema_name (h : c.Named) {name : String} {s : Schema}
    (hs : c.directory.schema name = .answer (.ok s)) : s.name = name := by
  replace hs : Lookup.answer (c.schema name) = .answer (.ok s) := hs
  unfold schema at hs
  split at hs
  · next found hfound =>
    cases hs
    exact h.schemas _ (ByName.mem_of_get? hfound)
  · cases hs

theorem Named.profile_role (h : c.Named) {role : String} {p : Profile}
    (hp : c.directory.profile role = .ok p) : p.role = role := by
  replace hp : c.profile role = .ok p := hp
  unfold profile at hp
  split at hp
  · next found hfound =>
    cases hp
    exact h.profiles _ (ByName.mem_of_get? hfound)
  · cases hp

inductive Phase where
  | idle
  | waiting (u : Update)
  | locked (u : Update)
  | pinned (u : Update) (snapshot : Catalog)
  | changed (u : Update) (next : Catalog)
  /-- The update is over, and the lock is about to be given back. -/
  | finished

def Phase.holds : Phase → Bool
  | idle => false
  | waiting _ => false
  | locked _ => true
  | pinned _ _ => true
  | changed _ _ => true
  | finished => true

/-- The update for which a writer has the lock, until it is over. -/
def Phase.pending : Phase → List Update
  | idle => []
  | waiting _ => []
  | locked u => [u]
  | pinned u _ => [u]
  | changed u _ => [u]
  | finished => []

/-- What a writer has prepared still fits the catalog. -/
def Phase.Fits (c : Catalog) : Phase → Prop
  | idle => True
  | waiting _ => True
  | locked _ => True
  | pinned _ snapshot => snapshot = c
  | changed u next => u.apply c = .ok next
  | finished => True

theorem Phase.fits_of_not_holds {phase : Phase} (h : phase.holds ≠ true) : phase.Fits c := by
  cases phase with
  | idle => trivial
  | waiting u => trivial
  | _ => exact absurd rfl h

/-- A catalog, who has its lock, and its writers. -/
structure Machine where
  current : Catalog
  holder : Option Nat := none
  writers : Nat → Phase := fun _ => .idle
  /-- The updates for which the lock was taken, the last one at the end. -/
  order : List Update := []
  log : Log := []

namespace Machine

def pending (m : Machine) : List Update := m.holder.elim [] fun w => (m.writers w).pending

def put (m : Machine) (w : Nat) (phase : Phase) : Machine :=
  { m with writers := Function.update m.writers w phase }

theorem writers_put (m : Machine) (w : Nat) (phase : Phase) (v : Nat) :
    (m.put w phase).writers v = if v = w then phase else m.writers v :=
  Function.update_apply m.writers w phase v

theorem forall_writers_put {m : Machine} {w : Nat} {phase : Phase} {P : Nat → Phase → Prop}
    (hphase : P w phase) (hothers : ∀ v, v ≠ w → P v (m.writers v)) (v : Nat) :
    P v ((m.put w phase).writers v) := by
  rw [writers_put]
  split
  · next hv => exact hv ▸ hphase
  · next hv => exact hothers v hv

inductive Step (m : Machine) (w : Nat) : Machine → Prop where
  | call (h : m.writers w = .idle) (u : Update) : Step m w (m.put w (.waiting u))
  | lock {u : Update} (h : m.writers w = .waiting u) (hfree : m.holder = none) :
      Step m w { m.put w (.locked u) with
        holder := some w
        order := m.order ++ [u] }
  | pin {u : Update} (h : m.writers w = .locked u) : Step m w (m.put w (.pinned u m.current))
  | change {u : Update} {snapshot next : Catalog} (h : m.writers w = .pinned u snapshot)
      (hu : u.apply snapshot = .ok next) : Step m w (m.put w (.changed u next))
  /-- There is nothing to put in place, and the update is over. -/
  | refuse {u : Update} {snapshot : Catalog} {why : CatalogError}
      (h : m.writers w = .pinned u snapshot) (hu : u.apply snapshot = .error why) :
      Step m w { m.put w .finished with log := m.log ++ [(u, .error why)] }
  | swap {u : Update} {next : Catalog} (h : m.writers w = .changed u next) :
      Step m w { m.put w .finished with
        current := next
        log := m.log ++ [(u, .ok next.version)] }
  | unlock (h : m.writers w = .finished) : Step m w { m.put w .idle with holder := none }

def Leads : Machine → Machine → Prop := Relation.ReflTransGen fun m m' => ∃ w, Step m w m'

variable {m m' : Machine} {w : Nat}

/-- What the lock sees to. -/
structure Guarded (initial : Catalog) (m : Machine) : Prop where
  holder : ∀ w, (m.writers w).holds = true ↔ m.holder = some w
  fits : ∀ w, (m.writers w).Fits m.current
  order : m.order = m.log.map Prod.fst ++ m.pending
  serial : Serial initial m.log m.current

theorem guarded_start (initial : Catalog) : Guarded initial { current := initial } where
  holder w := by simp [Phase.holds]
  fits w := trivial
  order := rfl
  serial := .nil

namespace Guarded

theorem not_holds (h : Guarded initial m) (hw : (m.writers w).holds = true) {v : Nat}
    (hv : v ≠ w) : (m.writers v).holds ≠ true := by
  intro hholds
  exact hv (Option.some.inj (((h.holder v).mp hholds).symm.trans ((h.holder w).mp hw)))

/-- A writer goes on by itself, with the lock or without it. -/
theorem put (h : Guarded initial m) {phase : Phase} (hholds : phase.holds = (m.writers w).holds)
    (hpending : phase.pending = (m.writers w).pending) (hfits : phase.Fits m.current) :
    Guarded initial (m.put w phase) where
  holder := forall_writers_put (P := fun v p => p.holds = true ↔ m.holder = some v)
    (hholds ▸ h.holder w) fun v _ => h.holder v
  fits := forall_writers_put (P := fun _ p => p.Fits m.current) hfits fun v _ => h.fits v
  order := by
    have hsame : (m.put w phase).pending = m.pending := by
      show m.holder.elim [] (fun v => ((m.put w phase).writers v).pending) = _
      congr 1
      funext v
      exact forall_writers_put (P := fun v p => p.pending = (m.writers v).pending) hpending
        (fun _ _ => rfl) v
    rw [hsame]
    exact h.order
  serial := h.serial

theorem lock (h : Guarded initial m) (hfree : m.holder = none) (u : Update) :
    Guarded initial { m.put w (.locked u) with
      holder := some w
      order := m.order ++ [u] } where
  holder := by
    refine forall_writers_put (P := fun v p => p.holds = true ↔ some w = some v)
      (by simp [Phase.holds]) fun v hv => ?_
    rw [h.holder v, hfree]
    simp [Ne.symm hv]
  fits := forall_writers_put (P := fun _ p => p.Fits m.current) trivial fun v _ => h.fits v
  order := by
    have hnone : m.pending = [] := by rw [pending, hfree, Option.elim_none]
    show m.order ++ [u] = m.log.map Prod.fst ++ ((m.put w (.locked u)).writers w).pending
    rw [h.order, hnone, List.append_nil, writers_put, if_pos rfl]
    rfl
  serial := h.serial

/-- Made or refused, an update is over while its writer has the lock, and nobody else has prepared
anything. -/
theorem finish (h : Guarded initial m) (hw : (m.writers w).holds = true)
    (hpending : (m.writers w).pending = [u]) {next : Catalog} {result : Except CatalogError Version}
    (hnext : Serial initial (m.log ++ [(u, result)]) next) :
    Guarded initial { m.put w .finished with
      current := next
      log := m.log ++ [(u, result)] } where
  holder := by
    refine forall_writers_put (P := fun v p => p.holds = true ↔ m.holder = some v) ?_
      fun v _ => h.holder v
    rw [← h.holder w, hw]
    rfl
  fits := forall_writers_put (P := fun _ p => p.Fits next) trivial
    fun _ hv => Phase.fits_of_not_holds (h.not_holds hw hv)
  order := by
    have hholder : m.holder = some w := (h.holder w).mp hw
    show m.order = (m.log ++ [(u, result)]).map Prod.fst ++
      m.holder.elim [] fun v => ((m.put w .finished).writers v).pending
    rw [h.order, pending, hholder, Option.elim_some, Option.elim_some, hpending, writers_put,
      if_pos rfl, List.map_append]
    exact (List.append_nil _).symm
  serial := hnext

theorem unlock (h : Guarded initial m) (hw : m.writers w = .finished) :
    Guarded initial { m.put w .idle with holder := none } := by
  have hholds : (m.writers w).holds = true := by
    rw [hw]
    rfl
  refine ⟨?_, ?_, ?_, h.serial⟩
  · exact forall_writers_put (P := fun v p => p.holds = true ↔ none = some v)
      (by simp [Phase.holds]) fun v hv => iff_of_false (h.not_holds hholds hv) (by simp)
  · exact forall_writers_put (P := fun _ p => p.Fits m.current) trivial fun v _ => h.fits v
  · have hnone : m.pending = [] := by
      rw [pending, (h.holder w).mp hholds, Option.elim_some, hw]
      rfl
    show m.order = m.log.map Prod.fst ++ []
    rw [h.order, hnone]

theorem step (h : Guarded initial m) (hs : Step m w m') : Guarded initial m' := by
  have hfits := h.fits w
  cases hs with
  | call hw u => exact h.put (by rw [hw]; rfl) (by rw [hw]; rfl) trivial
  | lock hw hfree => exact h.lock hfree _
  | pin hw => exact h.put (by rw [hw]; rfl) (by rw [hw]; rfl) rfl
  | change hw hu =>
    rw [hw] at hfits
    cases hfits
    exact h.put (by rw [hw]; rfl) (by rw [hw]; rfl) hu
  | refuse hw hu =>
    rw [hw] at hfits
    cases hfits
    exact h.finish (by rw [hw]; rfl) (by rw [hw]; rfl) (h.serial.refused hu)
  | swap hw =>
    rw [hw] at hfits
    exact h.finish (by rw [hw]; rfl) (by rw [hw]; rfl) (h.serial.made hfits)
  | unlock hw => exact h.unlock hw

end Guarded

theorem guarded_of_leads (h : Leads { current := initial } m) : Guarded initial m := by
  induction h with
  | refl => exact guarded_start initial
  | tail _ hs ih =>
    obtain ⟨w, hs⟩ := hs
    exact ih.step hs

/-- What is known at any time of a catalog that writers update. -/
structure Kept (initial : Catalog) (m : Machine) : Prop where
  /-- The updates end in the order in which the lock was taken for them. -/
  order : m.order = m.log.map Prod.fst ++ m.pending
  serial : Serial initial m.log m.current
  /-- The version counts the updates that were made, and begins again when its word is full. -/
  version : m.current.version.number.toNat = m.log.made.length % UInt64.size
  /-- A schema is what the last update of its name has left. -/
  schemas : ∀ name, m.current.schemas.get? name =
    (m.log.made.filterMap (·.schemaAt name)).getLast?.getD (initial.schemas.get? name)
  /-- A profile is what the last update of its role has left. -/
  profiles : ∀ role, m.current.profiles.get? role =
    (m.log.made.filterMap (·.profileAt role)).getLast?.or (initial.profiles.get? role)
  named : m.current.Named
  refusals : ∀ u why, (u, .error why) ∈ m.log →
    ∃ name, u = .removeSchema name ∧ why = .schemaNotFound name
  /-- Only the writer that has the lock changes the catalog, by an update that is made. -/
  changes : ∀ w m', Step m w m' → m'.current ≠ m.current → m.holder = some w ∧
    ∃ u, m.writers w = .changed u m'.current ∧ m'.log = m.log ++ [(u, .ok m'.current.version)]

/-- Whatever the writers do, the catalog is what the updates leave that were made, one after the
other.  So a compilation with the catalog of any moment is given the schema of no other table, and
the profile of no other role. -/
theorem updates_kept {schemas : List Schema} {profiles : List Profile}
    (h : Leads { current := ofLists schemas profiles } m) :
    Kept (ofLists schemas profiles) m ∧
      ∀ (c : Compiler) (now : UInt64) (cancel : Cancellation) (r : Request),
        (∀ p found table, (c.serve now cancel m.current.directory r).1 ≠
          .error (.check (.type ⟨p, .wrongTable found table⟩))) ∧
        ∀ out, (c.serve now cancel m.current.directory r).1 = .ok out →
          out.node.access.role = some r.role := by
  have hguarded := guarded_of_leads h
  have hserial := hguarded.serial
  have hnamed : m.current.Named := hserial.named (named_ofLists schemas profiles)
  refine ⟨⟨hguarded.order, hserial, ?_, hserial.schemas, hserial.profiles, hnamed,
    fun _ _ => hserial.refusals, fun w m' hs hne => ?_⟩, fun c now cancel r => ⟨?_, ?_⟩⟩
  · rw [hserial.version]
    show (0 + UInt64.ofNat m.log.made.length).toNat = _
    rw [UInt64.zero_add, UInt64.toNat_ofNat']
  · cases hs with
    | swap hw =>
      refine ⟨(hguarded.holder w).mp ?_, _, hw, rfl⟩
      rw [hw]
      rfl
    | _ => exact absurd rfl hne
  · exact Compiler.serve_ne_wrongTable fun _ _ => hnamed.schema_name
  · exact fun _ => Compiler.role_of_serve fun _ _ => hnamed.profile_role

/-- Three writers begin at once.  Two put a profile of one role, and between them the third fails to
remove a schema. -/
theorem updates_kept_contended :
    ∃ m, Leads { current := ofLists [] [] } m ∧
      m.log.map Prod.snd = [.ok ⟨1⟩, .error (.schemaNotFound "logs"), .ok ⟨2⟩] ∧
      m.current.profiles = [("reader", (Profile.unrestricted "reader").strict)] ∧
      Kept (ofLists [] []) m ∧
        ∀ (c : Compiler) (now : UInt64) (cancel : Cancellation) (r : Request),
          (∀ p found table, (c.serve now cancel m.current.directory r).1 ≠
            .error (.check (.type ⟨p, .wrongTable found table⟩))) ∧
          ∀ out, (c.serve now cancel m.current.directory r).1 = .ok out →
            out.node.access.role = some r.role := by
  have hfirst : Leads { current := ofLists [] [] } _ :=
    .single ⟨0, .call rfl (.putProfile (Profile.unrestricted "reader"))⟩
  have hsecond := hfirst.tail ⟨1, .call rfl (.putProfile (Profile.unrestricted "reader").strict)⟩
  have hcalls := hsecond.tail ⟨2, .call rfl (.removeSchema "logs")⟩
  have hput := (((hcalls.tail ⟨0, .lock rfl rfl⟩).tail ⟨0, .pin rfl⟩).tail
    ⟨0, .change rfl rfl⟩).tail ⟨0, .swap rfl⟩
  have hremoved := (((hput.tail ⟨0, .unlock rfl⟩).tail ⟨2, .lock rfl rfl⟩).tail
    ⟨2, .pin rfl⟩).tail ⟨2, .refuse rfl rfl⟩
  have hreplaced := ((((hremoved.tail ⟨2, .unlock rfl⟩).tail ⟨1, .lock rfl rfl⟩).tail
    ⟨1, .pin rfl⟩).tail ⟨1, .change rfl rfl⟩).tail ⟨1, .swap rfl⟩
  exact ⟨_, hreplaced, rfl, rfl, updates_kept hreplaced⟩

end Machine
end Catalog
end Attest
