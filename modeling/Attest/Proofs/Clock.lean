import Attest.Provenance
import Mathlib.Data.List.Nodup
import Mathlib.Logic.Function.Basic
import Mathlib.Logic.Relation

/-!
One clock that many threads tick.

A tick reads the wall clock once and then tries to exchange the last time for the next one, until
nobody else has changed it in between.  The steps of different threads come in any order.  What a
thread sees of the clock may be out of date, and an exchange may fail for no reason; the wall clock
may stand still or go back.  Still an exchange that succeeds is a tick of the clock as it is at that
moment, so every time that is given out is later than all that were given out before it.
-/

namespace Attest
namespace Clock

/-- The last number that fits a word, behind which there is no next one. -/
def limit : UInt64 := 0xffffffffffffffff

theorem lt_tick {c : Clock} (h : c.last ≠ limit) (now : UInt64) : c.last < (c.tick now).1 := by
  have hlast : c.last.toNat ≠ 0xffffffffffffffff := fun heq => h (UInt64.toNat_inj.mp heq)
  have hbound := c.last.toNat_lt
  have hnext : (c.last + 1).toNat = c.last.toNat + 1 := by
    rw [UInt64.toNat_add]
    show (c.last.toNat + 1) % 0x10000000000000000 = _
    omega
  show c.last < if now ≤ c.last + 1 then c.last + 1 else now
  rw [UInt64.lt_iff_toNat_lt]
  split
  · omega
  · next hnow =>
    rw [UInt64.le_iff_toNat_le] at hnow
    omega

/-- Where a thread stands.  In a tick it knows the step at which it began, and what it has read. -/
inductive Phase where
  | idle
  | called (began : Nat)
  | timed (began : Nat) (now : UInt64)
  | ready (began : Nat) (now seen : UInt64)
  /-- The exchange has succeeded, and the tick is about to return. -/
  | won (began : Nat) (value : UInt64)

/-- The step at which the tick began that a thread is in. -/
def Phase.began? : Phase → Option Nat
  | idle => none
  | called b => some b
  | timed b _ => some b
  | ready b _ _ => some b
  | won b _ => some b

/-- A tick that has returned: the steps at which it began and ended, and its time. -/
structure Tick where
  began : Nat
  ended : Nat
  value : UInt64

/-- A clock, the times that it had before, and the threads that tick it.  Every step is counted. -/
structure Machine where
  clock : Clock := {}
  past : List UInt64 := []
  threads : Nat → Phase := fun _ => .idle
  time : Nat := 0
  ticks : List Tick := []

namespace Machine

def values (m : Machine) : List UInt64 := m.clock.last :: m.past

def put (m : Machine) (t : Nat) (phase : Phase) : Machine :=
  { m with threads := Function.update m.threads t phase, time := m.time + 1 }

theorem threads_put (m : Machine) (t : Nat) (phase : Phase) (u : Nat) :
    (m.put t phase).threads u = if u = t then phase else m.threads u :=
  Function.update_apply m.threads t phase u

inductive Step (m : Machine) (t : Nat) : Machine → Prop where
  | call (h : m.threads t = .idle) : Step m t (m.put t (.called m.time))
  | readWall {b : Nat} (h : m.threads t = .called b) (now : UInt64) :
      Step m t (m.put t (.timed b now))
  | load {b : Nat} {now : UInt64} (h : m.threads t = .timed b now) (seen : UInt64)
      (hseen : seen ∈ m.values) : Step m t (m.put t (.ready b now seen))
  /-- The clock is the one that the thread has seen. -/
  | exchange {b : Nat} {now seen : UInt64} (h : m.threads t = .ready b now seen)
      (hseen : m.clock = ⟨seen⟩) :
      Step m t { m.put t (.won b (m.clock.tick now).1) with
        clock := (m.clock.tick now).2
        past := m.values }
  /-- The exchange fails, also where the clock is the one that the thread has seen. -/
  | retry {b : Nat} {now seen : UInt64} (h : m.threads t = .ready b now seen) (actual : UInt64)
      (hactual : actual ∈ m.values) : Step m t (m.put t (.ready b now actual))
  | finish {b : Nat} {v : UInt64} (h : m.threads t = .won b v) :
      Step m t { m.put t .idle with ticks := ⟨b, m.time, v⟩ :: m.ticks }

def Leads : Machine → Machine → Prop := Relation.ReflTransGen fun m m' => ∃ t, Step m t m'

variable {m m' : Machine} {t : Nat}

/-- A thread that nobody disturbs makes one tick of the clock. -/
theorem leads_alone (ht : m.threads t = .idle) (now : UInt64) :
    Leads m { m with
      clock := (m.clock.tick now).2
      past := m.values
      time := m.time + 5
      ticks := ⟨m.time, m.time + 4, (m.clock.tick now).1⟩ :: m.ticks } := by
  have hthreads : m.threads = Function.update (Function.update (Function.update (Function.update
      (Function.update m.threads t (.called m.time)) t (.timed m.time now)) t
      (.ready m.time now m.clock.last)) t (.won m.time (m.clock.tick now).1)) t .idle := by
    simp only [Function.update_idem]
    rw [← ht, Function.update_eq_self]
  have hcall : Leads m (m.put t (.called m.time)) := .single ⟨t, .call ht⟩
  have htimed := hcall.tail ⟨t, .readWall (Function.update_self ..) now⟩
  have hready := htimed.tail ⟨t, .load (Function.update_self ..) _ List.mem_cons_self⟩
  have hwon := hready.tail ⟨t, .exchange (Function.update_self ..) rfl⟩
  have hidle := hwon.tail ⟨t, .finish (Function.update_self ..)⟩
  rw [hthreads]
  exact hidle

/-- What is known of a clock and its threads at any time. -/
structure Orderly (m : Machine) : Prop where
  started : ∀ t b, (m.threads t).began? = some b → b < m.time
  ended : ∀ k ∈ m.ticks, k.began < k.ended ∧ k.ended < m.time
  reached : ∀ k ∈ m.ticks, k.value ≤ m.clock.last
  won : ∀ t b v, m.threads t = .won b v → v ≤ m.clock.last ∧
    ∀ k ∈ m.ticks, k.value ≠ v ∧ (k.ended < b → k.value < v)
  apart : ∀ t u b c v w, m.threads t = .won b v → m.threads u = .won c w → t ≠ u → v ≠ w
  distinct : m.ticks.Pairwise fun k l => k.value ≠ l.value
  rising : ∀ k ∈ m.ticks, ∀ l ∈ m.ticks, k.ended < l.began → k.value < l.value

theorem orderly_start : Orderly {} where
  started t b h := by cases h
  ended k h := by cases h
  reached k h := by cases h
  won t b v h := by cases h
  apart t u b c v w h := by cases h
  distinct := .nil
  rising k h := by cases h

/-- The clock goes forward, and no thread moves. -/
theorem Orderly.raise (h : Orderly m) {clock : Clock} (hclock : m.clock.last ≤ clock.last)
    (past : List UInt64) : Orderly { m with clock, past } where
  started := h.started
  ended := h.ended
  reached k hk := UInt64.le_trans (h.reached k hk) hclock
  won t b v ht := ⟨UInt64.le_trans (h.won t b v ht).1 hclock, (h.won t b v ht).2⟩
  apart := h.apart
  distinct := h.distinct
  rising := h.rising

/-- A thread goes on.  If it has won, then a time that nobody has, behind all that were returned
before it began. -/
theorem Orderly.put (h : Orderly m) {phase : Phase}
    (hbegan : ∀ b, phase.began? = some b → b ≤ m.time)
    (hwon : ∀ b v, phase = .won b v → v ≤ m.clock.last ∧
      (∀ k ∈ m.ticks, k.value ≠ v ∧ (k.ended < b → k.value < v)) ∧
        ∀ u c w, u ≠ t → m.threads u = .won c w → w ≠ v) : Orderly (m.put t phase) where
  started u b hu := by
    show b < m.time + 1
    rw [threads_put] at hu
    split at hu
    · have := hbegan b hu
      omega
    · have := h.started u b hu
      omega
  ended k hk := ⟨(h.ended k hk).1, Nat.lt_succ_of_lt (h.ended k hk).2⟩
  reached := h.reached
  won u b v hu := by
    rw [threads_put] at hu
    split at hu
    · obtain ⟨hreached, hticks, -⟩ := hwon b v hu
      exact ⟨hreached, hticks⟩
    · exact h.won u b v hu
  apart u u' b c v w hu hu' hne := by
    rw [threads_put] at hu hu'
    split at hu
    · next heq =>
      rw [if_neg (by omega)] at hu'
      exact ((hwon b v hu).2.2 u' c w (by omega) hu').symm
    · split at hu'
      · next hut _ => exact (hwon c w hu').2.2 u b v hut hu
      · exact h.apart u u' b c v w hu hu' hne
  distinct := h.distinct
  rising := h.rising

/-- A thread goes on with the tick that it is in. -/
theorem Orderly.put_began (h : Orderly m) {phase : Phase}
    (hbegan : phase.began? = (m.threads t).began?) (hwon : ∀ b v, phase ≠ .won b v) :
    Orderly (m.put t phase) := by
  refine h.put (fun b hb => ?_) fun b v hphase => absurd hphase (hwon b v)
  rw [hbegan] at hb
  exact Nat.le_of_lt (h.started t b hb)

theorem Orderly.exchange (h : Orderly m) (hlimit : m.clock.last ≠ limit) {b : Nat}
    {now seen : UInt64} (ht : m.threads t = .ready b now seen) :
    Orderly { m.put t (.won b (m.clock.tick now).1) with
      clock := (m.clock.tick now).2
      past := m.values } := by
  have hlt : m.clock.last < (m.clock.tick now).1 := lt_tick hlimit now
  have hraise : Orderly { m with clock := (m.clock.tick now).2, past := m.values } :=
    h.raise (UInt64.le_of_lt hlt) _
  show Orderly (Machine.put { m with clock := (m.clock.tick now).2, past := m.values } t
    (.won b (m.clock.tick now).1))
  refine hraise.put ?_ ?_
  · intro b' hb'
    cases hb'
    exact Nat.le_of_lt (h.started t b (by rw [ht]; rfl))
  · intro b' v hphase
    cases hphase
    refine ⟨UInt64.le_refl _, fun k hk => ?_, fun u c w _ hu => ?_⟩
    · have hk := UInt64.lt_of_le_of_lt (h.reached k hk) hlt
      exact ⟨UInt64.ne_of_lt hk, fun _ => hk⟩
    · exact UInt64.ne_of_lt (UInt64.lt_of_le_of_lt (h.won u c w hu).1 hlt)

theorem Orderly.finish (h : Orderly m) {b : Nat} {v : UInt64} (ht : m.threads t = .won b v) :
    Orderly { m.put t .idle with ticks := ⟨b, m.time, v⟩ :: m.ticks } := by
  obtain ⟨hreached, hticks⟩ := h.won t b v ht
  have hbegan : b < m.time := h.started t b (by rw [ht]; rfl)
  have hidle : Orderly (m.put t .idle) := h.put (by simp [Phase.began?]) (by simp)
  refine ⟨hidle.started, ?_, ?_, ?_, hidle.apart, ?_, ?_⟩
  · exact List.forall_mem_cons.mpr ⟨⟨hbegan, Nat.lt_succ_self _⟩, hidle.ended⟩
  · exact List.forall_mem_cons.mpr ⟨hreached, h.reached⟩
  · intro u c w hu
    obtain ⟨hw, hother⟩ := hidle.won u c w hu
    have hne : u ≠ t := by
      rintro rfl
      have hu : (m.put u .idle).threads u = .won c w := hu
      rw [threads_put, if_pos rfl] at hu
      cases hu
    have hu : m.threads u = .won c w := by
      rw [← hu]
      exact ((threads_put m t .idle u).trans (if_neg hne)).symm
    -- the tick ends now, and so not before another one began that is still going on
    have hc : c < m.time := h.started u c (by rw [hu]; rfl)
    refine ⟨hw, List.forall_mem_cons.mpr ⟨⟨h.apart t u b c v w ht hu hne.symm, ?_⟩, hother⟩⟩
    intro hlt
    have hlt : m.time < c := hlt
    omega
  · exact List.pairwise_cons.mpr ⟨fun k hk => (hticks k hk).1.symm, h.distinct⟩
  · intro k hk l hl hlt
    rcases List.mem_cons.mp hk with rfl | hk
    · rcases List.mem_cons.mp hl with rfl | hl
      · have hlt : m.time < b := hlt
        omega
      · have hlt : m.time < l.began := hlt
        have := h.ended l hl
        omega
    · rcases List.mem_cons.mp hl with rfl | hl
      · exact (hticks k hk).2 hlt
      · exact h.rising k hk l hl hlt

/-- A step keeps what is known, unless the clock has run to its end. -/
theorem Orderly.step (h : Orderly m) (hlimit : m.clock.last ≠ limit) (hs : Step m t m') :
    Orderly m' := by
  cases hs with
  | call ht =>
    refine h.put (fun b hb => ?_) (by simp)
    cases hb
    exact Nat.le_refl _
  | readWall ht now => exact h.put_began (by rw [ht]; rfl) (by simp)
  | load ht seen hseen => exact h.put_began (by rw [ht]; rfl) (by simp)
  | exchange ht hseen => exact h.exchange hlimit ht
  | retry ht actual hactual => exact h.put_began (by rw [ht]; rfl) (by simp)
  | finish ht => exact h.finish ht

/-- The clock keeps the times that it has had. -/
theorem values_subset_of_step (hs : Step m t m') : m.values ⊆ m'.values := by
  cases hs with
  | exchange ht hseen => exact List.subset_cons_self _ _
  | _ => exact List.Subset.refl _

theorem orderly_of_leads (h : Leads {} m) (hlimit : limit ∉ m.values) : Orderly m := by
  induction h with
  | refl => exact orderly_start
  | tail _ hs ih =>
    obtain ⟨t, hs⟩ := hs
    have hbefore : limit ∉ _ := fun hmem => hlimit (values_subset_of_step hs hmem)
    exact (ih hbefore).step (fun heq => hbefore (heq ▸ List.mem_cons_self)) hs

/-- As long as the clock has not run to its end, no two ticks return the same time, and a tick
returns a later time than every one that ended before it began. -/
theorem ticks_rise (h : Leads {} m) (hlimit : limit ∉ m.values) :
    (m.ticks.map (·.value)).Nodup ∧
      ∀ k ∈ m.ticks, ∀ l ∈ m.ticks, k.ended < l.began → k.value < l.value := by
  have horderly := orderly_of_leads h hlimit
  exact ⟨List.pairwise_map.mpr horderly.distinct, horderly.rising⟩

/-- Two threads begin at once, and the second loses the first exchange.  Then the first ticks again,
by a wall clock that has gone back. -/
theorem ticks_rise_raced :
    ∃ m, Leads {} m ∧ limit ∉ m.values ∧ m.ticks.map (·.value) = [7, 5, 6] ∧
      (m.ticks.map (·.value)).Nodup ∧
        ∀ k ∈ m.ticks, ∀ l ∈ m.ticks, k.ended < l.began → k.value < l.value := by
  obtain ⟨m, hm, hvalues, hticks⟩ :
      ∃ m, Leads {} m ∧ m.values = [7, 6, 5, 0] ∧ m.ticks.map (·.value) = [7, 5, 6] := by
    have hboth : Leads {} _ := .tail (.single ⟨0, .call rfl⟩) ⟨1, .call rfl⟩
    have hwalls := (hboth.tail ⟨0, .readWall rfl 5⟩).tail ⟨1, .readWall rfl 3⟩
    have hloads := (hwalls.tail ⟨0, .load rfl 0 (by decide)⟩).tail ⟨1, .load rfl 0 (by decide)⟩
    have hfirst := hloads.tail ⟨0, .exchange rfl rfl⟩
    have hsecond := (hfirst.tail ⟨1, .retry rfl 5 (by decide)⟩).tail ⟨1, .exchange rfl rfl⟩
    have hended := (hsecond.tail ⟨1, .finish rfl⟩).tail ⟨0, .finish rfl⟩
    exact ⟨_, hended.trans (leads_alone (t := 0) rfl 2), rfl, rfl⟩
  have hlimit : limit ∉ m.values := by
    rw [hvalues]
    decide
  exact ⟨m, hm, hlimit, hticks, ticks_rise hm hlimit⟩

end Machine
end Clock
end Attest
