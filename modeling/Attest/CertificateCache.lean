import Attest.Certificate
import Attest.Double.Round

/-!
A cache of certificates that forgets the one that was used the longest time ago.

A certificate is a function of what it is looked up by, so the cache changes no result.
-/

namespace Attest

/-- What a certificate is looked up by. -/
structure CertificateKey where
  method : Method
  evidence : String
  ty : String
  value : String
deriving DecidableEq, Repr

/-- The cache: certificates, the last used first.  With no room it keeps nothing and counts
nothing. -/
structure CertificateCache where
  capacity : Nat
  entries : List (CertificateKey × Certificate) := []
  hits : Nat := 0
  misses : Nat := 0
deriving DecidableEq, Repr

namespace CertificateCache

def keyOf (method : Method) (evidence : String) (v : TypedValue) : CertificateKey :=
  ⟨method, evidence, v.ty.render, v.value.render⟩

/-- The certificate of a key, moved to the front. -/
def touch (key : CertificateKey) (entries : List (CertificateKey × Certificate)) :
    Option (Certificate × List (CertificateKey × Certificate)) :=
  (entries.lookup key).map fun c => (c, (key, c) :: entries.filter (·.1 != key))

/-- A certificate from the cache, or else a new one.  Also whether it is new. -/
def getOrMint (c : CertificateCache) (method : Method) (evidence : String) (v : TypedValue)
    (minted : Certificate) : Certificate × Bool × CertificateCache :=
  if c.capacity == 0 then (minted, true, c)
  else
    let key := keyOf method evidence v
    match touch key c.entries with
    | some (found, entries) =>
      (found, false, { c with entries := entries, hits := c.hits + 1 })
    | none =>
      -- the last entry is the one not used for longest
      let entries := ((key, minted) :: c.entries).take c.capacity
      (minted, true, { c with entries := entries, misses := c.misses + 1 })

def size (c : CertificateCache) : Nat := c.entries.length

/-- The share of look-ups that found something, as the bits of a float of single width. -/
def hitRateBits (c : CertificateCache) : Nat :=
  let total := c.hits + c.misses
  if total == 0 then 0 else BinaryFormat.binary32.nearest c.hits total

def clear (c : CertificateCache) : CertificateCache := { capacity := c.capacity }

end CertificateCache
end Attest
