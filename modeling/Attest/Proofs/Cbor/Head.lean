import Attest.Item.Cbor
import Attest.Proofs.Outcome
import Mathlib.Tactic.Ring
import Mathlib.Tactic.SplitIfs

/-!
Heads of encoded items.

A head is read back with the kind and the number it was written with, whatever follows.
-/

namespace Attest
namespace Cbor

theorem length_bigEndian (k n : Nat) : (bigEndian k n).length = k := by
  induction k with
  | zero => rfl
  | succ k ih => rw [bigEndian, List.length_cons, ih]

theorem foldl_bigEndian (k n acc : Nat) :
    (bigEndian k n).foldl (fun n b => n * 256 + b.toNat) acc = acc * 256 ^ k + n % 256 ^ k := by
  induction k generalizing acc with
  | zero => simp [bigEndian, Nat.mod_one]
  | succ k ih =>
    have hbyte : (n / Nat.pow 256 k).toUInt8.toNat = n / 256 ^ k % 256 := UInt8.toNat_ofNat'
    rw [bigEndian, List.foldl_cons, ih, hbyte, Nat.pow_succ, Nat.mod_mul]
    ring

theorem ofBigEndian_bigEndian {k n : Nat} (h : n < 256 ^ k) : ofBigEndian (bigEndian k n) = n := by
  unfold ofBigEndian
  rw [foldl_bigEndian, Nat.mod_eq_of_lt h, Nat.zero_mul, Nat.zero_add]

theorem take_append (o : Nat) (bs rest : List UInt8) :
    take bs.length ⟨o, bs ++ rest⟩ = .ok (bs, ⟨o + bs.length, rest⟩) := by
  unfold take
  rw [if_neg (by simp), List.take_left, List.drop_left]

theorem takeNumber_bigEndian {k n : Nat} (h : n < 256 ^ k) (o : Nat) (rest : List UInt8) :
    takeNumber k ⟨o, bigEndian k n ++ rest⟩ = .ok (n, ⟨o + k, rest⟩) := by
  have htake := take_append o (bigEndian k n) rest
  rw [length_bigEndian] at htake
  unfold takeNumber
  rw [htake, Outcome.ok_bind]
  dsimp only
  rw [ofBigEndian_bigEndian h]
  rfl

theorem takeNumber_byte (o : Nat) (b : UInt8) (rest : List UInt8) :
    takeNumber 1 ⟨o, b :: rest⟩ = .ok (b.toNat, ⟨o + 1, rest⟩) := by
  simp [takeNumber, take, ofBigEndian]

theorem toNat_initial (m : Major) {info : Nat} (h : info < 32) :
    (initial m info).toNat = m.number * 32 + info := by
  have hm : m.number < 8 := by cases m <;> decide
  unfold initial
  rw [Nat.toUInt8_eq, UInt8.toNat_ofNat']
  omega

theorem ofNumber_number (m : Major) : Major.ofNumber m.number = m := by cases m <;> rfl

/-- The first byte tells the kind and what the number is like. -/
theorem read_initial (m : Major) {info : Nat} (h : info < 32) (o : Nat) (rest : List UInt8) :
    ∃ byte, takeNumber 1 ⟨o, initial m info :: rest⟩ = .ok (byte, ⟨o + 1, rest⟩) ∧
      Major.ofNumber (byte / 32) = m ∧ byte % 32 = info := by
  refine ⟨m.number * 32 + info, ?_, ?_, by omega⟩
  · rw [takeNumber_byte, toNat_initial m h]
  · have hdiv : (m.number * 32 + info) / 32 = m.number := by omega
    rw [hdiv, ofNumber_number]

theorem read_head (m : Major) {n : Nat} (h : n < 2 ^ 64) (o : Nat) (rest : List UInt8) :
    ∃ byte i, takeNumber 1 ⟨o, head m n ++ rest⟩ = .ok (byte, i) ∧
      Major.ofNumber (byte / 32) = m ∧
      argument (byte % 32) o i = .ok (n, ⟨o + (head m n).length, rest⟩) := by
  have hwide : ∀ (info k : Nat), info < 32 → n < 256 ^ k →
      (∀ i, argument info o i = takeNumber k i) →
      ∃ byte i, takeNumber 1 ⟨o, initial m info :: bigEndian k n ++ rest⟩ = .ok (byte, i) ∧
        Major.ofNumber (byte / 32) = m ∧ argument (byte % 32) o i =
          .ok (n, ⟨o + (initial m info :: bigEndian k n).length, rest⟩) := by
    intro info k hinfo hn harg
    obtain ⟨byte, hbyte, hmajor, hmod⟩ := read_initial m hinfo o (bigEndian k n ++ rest)
    refine ⟨byte, _, hbyte, hmajor, ?_⟩
    rw [hmod, harg, takeNumber_bigEndian hn, List.length_cons, length_bigEndian, Nat.add_assoc,
      Nat.add_comm 1 k]
  unfold head
  split_ifs with h1 h2 h3 h4
  · obtain ⟨byte, hbyte, hmajor, hmod⟩ := read_initial m (Nat.lt_trans h1 (by decide)) o rest
    refine ⟨byte, _, hbyte, hmajor, ?_⟩
    rw [hmod, argument, if_pos h1]
    rfl
  · exact hwide 24 1 (by decide) h2 fun _ => rfl
  · exact hwide 25 2 (by decide) h3 fun _ => rfl
  · exact hwide 26 4 (by decide) h4 fun _ => rfl
  · exact hwide 27 8 (by decide) h fun _ => rfl

theorem length_head_pos (m : Major) (n : Nat) : 0 < (head m n).length := by
  unfold head
  split_ifs <;> simp

/-- A larger number has no shorter head. -/
theorem length_head_mono (m : Major) {a b : Nat} (h : a ≤ b) :
    (head m a).length ≤ (head m b).length := by
  unfold head
  split_ifs <;> simp [length_bigEndian] <;> omega

end Cbor
end Attest
