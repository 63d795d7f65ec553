import Attest.Proofs.Cbor.RoundTrip
import Attest.Proofs.Wire.Levels
import Attest.Proofs.Wire.Regular

/-!
Values with their certificates read back from the wire.

A value says its type under a tag or in a text that is parsed anew, and is decided anew.  The
certificate need not be the one that would be minted: any that is accepted for the value comes back
as it was written, whatever its evidence says.
-/

namespace Attest
namespace TypedValue

/-- A value and a certificate come back together from their item, from the bytes of the item, and
from its document if that can hold the floats. -/
structure Returns (v : TypedValue) (c : Certificate) : Prop where
  item : (v.toItem c).toTypedValue = .ok (v, c)
  bytes : (v.toItem c).Sized →
    (Cbor.decode (Cbor.encode (v.toItem c)) >>= Item.toTypedValue) = .ok (v, c)
  document : v.value.Floats (fun x => x.isFinite = true) →
    ((v.toItem c).toJson >>= Item.ofJson >>= Item.toTypedValue) = .ok (v, c)

theorem levels_toItem_le {v : TypedValue} (h : v.ty.layers < defaultDepth) (c : Certificate) :
    (v.toItem c).levels ≤ Cbor.maxDepth := by
  have hlevels := Item.levels_le_layers v
  rw [Item.levels_typedValue]
  unfold defaultDepth at h
  unfold Cbor.maxDepth
  omega

theorem regular_toItem (v : TypedValue) (c : Certificate) :
    (v.toItem c).Regular fun _ => True :=
  Item.regular_typedValue (Value.floats_of_shaped (Ty.shaped_of_isHolds v.fits)) c

theorem returns_of_mismatch? {v : TypedValue} {c : Certificate} (h : v.ty.layers < defaultDepth)
    (hc : c.mismatch? v = none) : v.Returns c where
  item := Item.toTypedValue_toItem h hc
  bytes := by
    intro hsized
    rw [Cbor.decode_of_sized hsized (levels_toItem_le h c),
      Cbor.canon_of_regular (regular_toItem v c), Outcome.ok_bind, Item.toTypedValue_toItem h hc]
  document := by
    intro hfinite
    rw [Item.ofJson_toJson (Item.regular_typedValue hfinite c), Outcome.ok_bind,
      Item.toTypedValue_toItem h hc]

/-- A value of a type with few enough layers returns with any certificate that is accepted for it,
and so with the one by definition. -/
theorem typedValue_round_trip {v : TypedValue} (h : v.ty.layers < defaultDepth) :
    (∀ c : Certificate, c.mismatch? v = none → v.Returns c) ∧ v.Returns (Certificate.ofValue v) :=
  ⟨fun _ hc => returns_of_mismatch? h hc,
    returns_of_mismatch? h (Certificate.mismatch?_ofValue v)⟩

/-- The negative zero and one, within bounds. -/
def signs : TypedValue :=
  ⟨.vector (.boundedFloat Double.one.neg .one) 2, .vector [.float Double.zero.neg, .float .one], rfl⟩

/-- A certificate whose evidence holds a mark of its own. -/
def signsCertificate : Certificate := .mint .staticInterval "fingerprint= none" signs

theorem signs_round_trip :
    (Cbor.decode (Cbor.encode (signs.toItem signsCertificate)) >>= Item.toTypedValue) =
        .ok (signs, signsCertificate) ∧
      ((signs.toItem signsCertificate).toJson >>= Item.ofJson >>= Item.toTypedValue) =
        .ok (signs, signsCertificate) := by
  have hc : signsCertificate.mismatch? signs = none := Certificate.mismatch?_mint _ _ _
  have hreturns := (typedValue_round_trip (v := signs) (by decide)).1 signsCertificate hc
  refine ⟨hreturns.bytes (Cbor.sized_of_length_encode (by decide +kernel)),
    hreturns.document (.vector fun w hw => ?_)⟩
  rcases List.mem_pair.mp hw with rfl | rfl
  · exact .float (by decide)
  · exact .float (by decide)

end TypedValue
end Attest
