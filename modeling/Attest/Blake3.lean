/-!
The BLAKE3 hash of a byte sequence, in its default mode and length.

The input is cut into chunks of 1024 bytes and each chunk into blocks of 64.  The chaining values
of the chunks are joined by a binary tree whose left subtree always holds a power of two chunks.
-/

namespace Attest
namespace Blake3

/-- Words of a state, a block or a chaining value. -/
abbrev Words := Array UInt32

/-- The initial chaining value. -/
def iv : Words := #[0x6A09E667, 0xBB67AE85, 0x3C6EF372, 0xA54FF53A,
  0x510E527F, 0x9B05688C, 0x1F83D9AB, 0x5BE0CD19]

/-- Where each word of a block goes for the next round. -/
def schedule : List Nat := [2, 6, 3, 10, 7, 0, 4, 13, 1, 11, 12, 5, 9, 14, 15, 8]

def chunkStart : UInt32 := 1
def chunkEnd : UInt32 := 2
def parent : UInt32 := 4
def root : UInt32 := 8

def word (s : Words) (i : Nat) : UInt32 := s.getD i 0

def rotr (x : UInt32) (n : UInt32) : UInt32 := (x >>> n) ||| (x <<< (32 - n))

/-- The quarter round on places `a`, `b`, `c` and `d` with two words of the block. -/
def mix (s : Words) (a b c d : Nat) (x y : UInt32) : Words :=
  let va := word s a + word s b + x
  let vd := rotr (word s d ^^^ va) 16
  let vc := word s c + vd
  let vb := rotr (word s b ^^^ vc) 12
  let va := va + vb + y
  let vd := rotr (vd ^^^ va) 8
  let vc := vc + vd
  let vb := rotr (vb ^^^ vc) 7
  (((s.setIfInBounds a va).setIfInBounds b vb).setIfInBounds c vc).setIfInBounds d vd

/-- Mix the columns, then the diagonals. -/
def roundOf (s m : Words) : Words :=
  let s := mix s 0 4 8 12 (word m 0) (word m 1)
  let s := mix s 1 5 9 13 (word m 2) (word m 3)
  let s := mix s 2 6 10 14 (word m 4) (word m 5)
  let s := mix s 3 7 11 15 (word m 6) (word m 7)
  let s := mix s 0 5 10 15 (word m 8) (word m 9)
  let s := mix s 1 6 11 12 (word m 10) (word m 11)
  let s := mix s 2 7 8 13 (word m 12) (word m 13)
  mix s 3 4 9 14 (word m 14) (word m 15)

/-- The rounds that remain, permuting the block between them. -/
def rounds : Nat → Words → Words → Words
  | 0, s, _ => s
  | n + 1, s, m => rounds n (roundOf s m) (schedule.map (word m)).toArray

/-- The compression function, cut to a chaining value. -/
def compress (cv block : Words) (counter : UInt64) (length flags : UInt32) : Words :=
  let start := cv ++ iv.extract 0 4 ++ #[counter.toUInt32, (counter >>> 32).toUInt32, length, flags]
  let s := rounds 7 start block
  ((List.range 8).map fun i => word s i ^^^ word s (i + 8)).toArray

/-- The little-endian word of four bytes, missing ones being zero. -/
def wordOf (bs : List UInt8) : UInt32 :=
  bs.foldr (fun b acc => acc <<< 8 ||| b.toUInt32) 0

def blockWords (bs : List UInt8) : Words :=
  ((List.range 16).map fun i => wordOf ((bs.drop (4 * i)).take 4)).toArray

/-- A compression that has not been run, so that the last one can be marked as the root. -/
structure Output where
  cv : Words
  block : Words
  counter : UInt64
  length : UInt32
  flags : UInt32

def Output.chain (o : Output) : Words := compress o.cv o.block o.counter o.length o.flags

/-- The hash itself, from the topmost compression. -/
def Output.digest (o : Output) : Words := compress o.cv o.block 0 o.length (o.flags ||| root)

/-- The blocks of a chunk that remain, of which `count` have gone before. -/
def chunkFrom (index : UInt64) (cv : Words) (count : Nat) (bs : List UInt8) : Output :=
  let start := if count == 0 then chunkStart else 0
  let block := bs.take 64
  let rest := bs.drop 64
  if rest.isEmpty then
    ⟨cv, blockWords block, index, block.length.toUInt32, start ||| chunkEnd⟩
  else
    chunkFrom index (compress cv (blockWords block) index 64 start) (count + 1) rest
termination_by bs.length
decreasing_by
  rename_i h
  simp only [List.isEmpty_iff] at h
  have : (bs.drop 64).length ≠ 0 := fun h₀ => h (List.length_eq_zero_iff.mp h₀)
  simp only [List.length_drop] at *
  omega

/-- Chunks of 1024 bytes; the empty input has one. -/
def chunks (bs : List UInt8) : List (List UInt8) :=
  if bs.length ≤ 1024 then [bs] else bs.take 1024 :: chunks (bs.drop 1024)
termination_by bs.length
decreasing_by simp only [List.length_drop]; omega

def join (l r : Output) : Output := ⟨iv, l.chain ++ r.chain, 0, 64, parent⟩

/-- Join the neighbours of one level; one left over goes up by itself.  Doing so level after level
gives every left subtree a power of two leaves. -/
def joinPairs : List Output → List Output
  | l :: r :: rest => join l r :: joinPairs rest
  | rest => rest

/-- The topmost node over a level of the tree. -/
def top : Nat → List Output → Output
  | _, [o] => o
  | fuel + 1, level => top fuel (joinPairs level)
  | 0, _ => ⟨iv, iv, 0, 0, 0⟩

def leaves (bs : List UInt8) : List Output :=
  (chunks bs).mapIdx fun i c => chunkFrom i.toUInt64 iv 0 c

/-- The 32 bytes of the hash. -/
def hash (bs : List UInt8) : List UInt8 :=
  let level := leaves bs
  (top level.length level).digest.toList.flatMap fun (w : UInt32) =>
    [w.toUInt8, (w >>> 8).toUInt8, (w >>> 16).toUInt8, (w >>> 24).toUInt8]

end Blake3
end Attest
