import Attest.Proofs.Cbor.RoundTrip
import Attest.Proofs.Compiler
import Attest.Proofs.Node.RoundTrip
import Attest.Proofs.Ty.Text
import Attest.Proofs.Wire.Levels
import Attest.Proofs.Wire.Size

/-!
Compiled statements read back from their bytes.

The parser limits how deep it calls itself, but a chain of operators of one level is read in a loop,
and every operator of the chain is one more level of the condition.  So a statement may compile to
bytes that nest too deep to be read.  Else bytes are read back wherever the item is: if the columns
and the values in the condition are of types that the wire can hold.
-/

namespace Attest
namespace Compiler

variable {c : Compiler} {now : UInt64} {cancel : Cancellation} {r : Request} {schema : Schema}
  {profile : Profile}

theorem encoded_eq {out : Output} (h : (c.compile now cancel r schema profile).1 = .ok out)
    (hformat : out.format = .cbor) : out.encoded = .binary (Cbor.encode out.node.toItem) := by
  obtain ⟨-, -, -, -, -, -, -, -, hencoded⟩ := compile_eq_ok h
  rw [hformat] at hencoded
  exact (Except.ok.inj hencoded).symm

end Compiler

/-- The bytes of a sound node are read back exactly if its condition does not nest too deep and the
values in it are of types that the wire can hold. -/
theorem Format.readNode_encode {n m : Node} (hn : n.Sound)
    (hsize : (Cbor.encode n.toItem).length < 2 ^ 64) :
    cbor.readNode (Cbor.encode n.toItem) = .ok m ↔
      m = n ∧ (∀ p ∈ n.predicate, p.levels < Cbor.maxDepth) ∧
        ∀ v ∈ n.literals, v.ty.layers < defaultDepth := by
  have hregular : n.toItem.Regular fun _ => True :=
    Item.regular_node ⟨fun c _ => Value.floats_of_shaped (Ty.shaped_of_isHolds c.value.fits),
      fun v _ => Value.floats_of_shaped (Ty.shaped_of_isHolds v.fits)⟩
  show (Cbor.decode _ >>= Item.toNode) = .ok m ↔ _
  rw [← Node.levels_le_iff hn]
  -- The reader's limit comes first.  Below it, what is read is the item that was written.
  by_cases hd : n.toItem.levels ≤ Cbor.maxDepth
  · rw [Cbor.decode_encode hsize hd, Cbor.canon_of_regular hregular, Outcome.ok_bind,
      Node.toNode_toItem_iff hn]
    exact ⟨fun ⟨hm, hv⟩ => ⟨hm, hd, hv⟩, fun ⟨hm, _, hv⟩ => ⟨hm, hv⟩⟩
  · obtain ⟨e, he⟩ := Cbor.decode_encode_error hsize (Nat.lt_of_not_le hd)
    rw [he]
    constructor
    · intro h
      cases h
    · rintro ⟨-, hle, -⟩
      exact absurd hle hd

namespace Compiler

/-- What a compilation over columns that the wire can hold gives in bytes is read back, and as the
same node, exactly if its condition does not nest too deep and the wire can hold the values in it
too.  The bytes are those of a machine: their number is of 64 bits. -/
theorem compiled_round_trip {c : Compiler} (hc : c.Reachable) {schema : Schema}
    (hs : ∀ d ∈ schema.columns, ∃ source, Ty.parse source = .ok d.ty)
    {now : UInt64} {cancel : Cancellation} {r : Request} {profile : Profile} {out : Output}
    (h : (c.compile now cancel r schema profile).1 = .ok out) (hformat : out.format = .cbor)
    (hsize : out.encoded.size < 2 ^ 64) (m : Node) :
    Format.cbor.readNode out.encoded.bytes = .ok m ↔
      m = out.node ∧ (∀ p ∈ out.node.predicate, p.levels < Cbor.maxDepth) ∧
        ∀ v ∈ out.node.literals, v.ty.layers < defaultDepth := by
  obtain ⟨s, t, p, n, ht, hn, hnode, -, -⟩ := compile_eq_ok h
  have hcolumns : ∀ d ∈ schema.columns, d.ty.BoundsFinite ∧ d.ty.layers < defaultDepth := by
    intro d hd
    obtain ⟨source, hsource⟩ := hs d hd
    exact (Ty.of_parse hsource).symm
  have hsound : out.node.Sound :=
    hnode ▸ Node.sound_of_lower (Checker.about_of_check ht) hcolumns hc.cache.faithful hn _
  rw [encoded_eq h hformat] at hsize ⊢
  exact Format.readNode_encode hsound hsize

/-- `SELECT a FROM t WHERE a+..+a=a` with so many signs -/
def asksSum (k : Nat) : Request where
  source := "SELECT a FROM t WHERE a" ++ String.join (List.replicate k "+a") ++ "=a"
  role := "r"
  format := some .cbor

/-- What comes of a sum in a new compiler. -/
def sumOf (k : Nat) : Except CompileError Output × Compiler :=
  (ofConfig default).compile 0 none (asksSum k) .natural (.unrestricted "r")

/-- Whether an output has few bytes, and a condition of so many levels that holds no values. -/
def measures (levels : Nat) (out : Output) : Bool :=
  out.format == .cbor && out.node.literals.isEmpty &&
    (Cbor.encode { out.node with predicate := none }.toItem).length < 1024 &&
    out.node.predicate.any fun p => p.levels == levels && p.room < 0x100000000

theorem of_measures {k levels : Nat} (h : (sumOf k).1.toOption.any (measures levels) = true) :
    ∃ out p, (sumOf k).1 = .ok out ∧ out.format = .cbor ∧ out.node.literals = [] ∧
      out.encoded.size < 2 ^ 64 ∧ out.node.predicate = some p ∧ p.levels = levels := by
  obtain ⟨out, hout, h⟩ := Outcome.exists_of_any_toOption h
  simp only [measures, Bool.and_eq_true, beq_iff_eq, List.isEmpty_iff, decide_eq_true_eq,
    Option.any_eq_true] at h
  obtain ⟨⟨⟨hformat, hliterals⟩, hrest⟩, p, hp, hlevels, hroom⟩ := h
  refine ⟨out, p, hout, hformat, hliterals, ?_, hp, hlevels⟩
  -- The bytes are not computed: the room of the condition bounds how many they are.
  have hsize := Cbor.length_encode_node_le hp
  rw [encoded_eq hout hformat]
  show (Cbor.encode out.node.toItem).length < 2 ^ 64
  omega

theorem measures_sum : (sumOf 125).1.toOption.any (measures Cbor.maxDepth) = true := by
  decide +kernel

/-- Three signs are read back, and a hundred and twenty-five are not. -/
theorem compiled_sum :
    (∃ out, (sumOf 3).1 = .ok out ∧ Format.cbor.readNode out.encoded.bytes = .ok out.node) ∧
      ∃ out, (sumOf 125).1 = .ok out ∧ ∀ m, Format.cbor.readNode out.encoded.bytes ≠ .ok m := by
  have hcolumns : ∀ d ∈ Schema.natural.columns, ∃ source, Ty.parse source = .ok d.ty := by
    intro d hd
    rw [List.mem_singleton.mp hd]
    exact ⟨"Nat", by decide +kernel⟩
  constructor
  · obtain ⟨out, p, hout, hformat, hliterals, hsize, hp, hlevels⟩ :=
      of_measures (show (sumOf 3).1.toOption.any (measures 6) = true by decide +kernel)
    refine ⟨out, hout, ?_⟩
    refine (compiled_round_trip (.ofConfig default) hcolumns hout hformat hsize out.node).mpr
      ⟨rfl, ?_, ?_⟩
    · intro q hq
      cases hp ▸ hq
      rw [hlevels]
      decide
    · intro v hv
      rw [hliterals] at hv
      cases hv
  · obtain ⟨out, p, hout, hformat, -, hsize, hp, hlevels⟩ := of_measures measures_sum
    refine ⟨out, hout, fun m hm => ?_⟩
    obtain ⟨-, hlt, -⟩ :=
      (compiled_round_trip (.ofConfig default) hcolumns hout hformat hsize m).mp hm
    exact absurd (hlevels ▸ hlt p hp) (Nat.lt_irrefl _)

end Compiler
end Attest
