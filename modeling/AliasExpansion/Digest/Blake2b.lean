-- SUMMARY: The keyed BLAKE2b digest.

/-!
# BLAKE2b

The BLAKE2b hash function with a key of at most 64 bytes and a digest of at most 64 bytes. The
state is eight words of 64 bits. Each block of 128 bytes is mixed in over twelve rounds of eight
mixing steps; the key, filled up to a whole block, is hashed before the message.
-/

namespace AliasExpansion.Blake2b

abbrev State := Vector UInt64 8
abbrev Work := Vector UInt64 16

def blockBytes : Nat := 128

def maxKeyBytes : Nat := 64

def initial : State :=
  #v[0x6a09e667f3bcc908, 0xbb67ae8584caa73b, 0x3c6ef372fe94f82b, 0xa54ff53a5f1d36f1,
    0x510e527fade682d1, 0x9b05688c2b3e6c1f, 0x1f83d9abfb41bd6b, 0x5be0cd19137e2179]

/-- The order in which each round takes the message words. The rounds repeat after ten. -/
def schedule : List (Vector (Fin 16) 16) :=
  [#v[0, 1, 2, 3, 4, 5, 6, 7, 8, 9, 10, 11, 12, 13, 14, 15],
    #v[14, 10, 4, 8, 9, 15, 13, 6, 1, 12, 0, 2, 11, 7, 5, 3],
    #v[11, 8, 12, 0, 5, 2, 15, 13, 10, 14, 3, 6, 7, 1, 9, 4],
    #v[7, 9, 3, 1, 13, 12, 11, 14, 2, 6, 5, 10, 4, 0, 15, 8],
    #v[9, 0, 5, 7, 2, 4, 10, 15, 14, 1, 11, 12, 6, 8, 3, 13],
    #v[2, 12, 6, 10, 0, 11, 8, 3, 4, 13, 7, 5, 15, 14, 1, 9],
    #v[12, 5, 1, 15, 14, 13, 4, 10, 0, 7, 6, 3, 9, 2, 8, 11],
    #v[13, 11, 7, 14, 12, 1, 3, 9, 5, 0, 15, 4, 8, 6, 2, 10],
    #v[6, 15, 14, 9, 11, 3, 0, 8, 12, 2, 13, 7, 1, 4, 10, 5],
    #v[10, 2, 8, 4, 7, 6, 1, 5, 15, 11, 9, 14, 3, 12, 13, 0],
    #v[0, 1, 2, 3, 4, 5, 6, 7, 8, 9, 10, 11, 12, 13, 14, 15],
    #v[14, 10, 4, 8, 9, 15, 13, 6, 1, 12, 0, 2, 11, 7, 5, 3]]

def rotateRight (x : UInt64) (n : UInt64) : UInt64 :=
  (x >>> n) ||| (x <<< (64 - n))

-- ---------------------------------------------------------------------------
-- Compression
-- ---------------------------------------------------------------------------

/-- One mixing step: two message words enter four words of the work vector. -/
def mix (v : Work) (a b c d : Fin 16) (x y : UInt64) : Work :=
  let v := v.set a (v[a] + v[b] + x)
  let v := v.set d (rotateRight (v[d] ^^^ v[a]) 32)
  let v := v.set c (v[c] + v[d])
  let v := v.set b (rotateRight (v[b] ^^^ v[c]) 24)
  let v := v.set a (v[a] + v[b] + y)
  let v := v.set d (rotateRight (v[d] ^^^ v[a]) 16)
  let v := v.set c (v[c] + v[d])
  v.set b (rotateRight (v[b] ^^^ v[c]) 63)

/-- One round mixes the columns and then the diagonals of the work vector. -/
def round (m : Work) (v : Work) (s : Vector (Fin 16) 16) : Work :=
  let v := mix v 0 4 8 12 m[s[0]] m[s[1]]
  let v := mix v 1 5 9 13 m[s[2]] m[s[3]]
  let v := mix v 2 6 10 14 m[s[4]] m[s[5]]
  let v := mix v 3 7 11 15 m[s[6]] m[s[7]]
  let v := mix v 0 5 10 15 m[s[8]] m[s[9]]
  let v := mix v 1 6 11 12 m[s[10]] m[s[11]]
  let v := mix v 2 7 8 13 m[s[12]] m[s[13]]
  mix v 3 4 9 14 m[s[14]] m[s[15]]

/-- Mix a block into the state. `count` is the number of bytes hashed so far, this block
    included. -/
def compress (h : State) (m : Work) (count : Nat) (last : Bool) : State :=
  let v : Work := h ++ initial
  let v := v.set 12 (v[12] ^^^ UInt64.ofNat count)
  let v := v.set 13 (v[13] ^^^ UInt64.ofNat (count >>> 64))
  let v := if last then v.set 14 (~~~v[14]) else v
  let v := schedule.foldl (round m) v
  Vector.ofFn fun (i : Fin 8) => h[i] ^^^ v[i.val] ^^^ v[i.val + 8]

-- ---------------------------------------------------------------------------
-- Bytes and words
-- ---------------------------------------------------------------------------

/-- The number that `bytes` spell, the first byte the lowest. -/
def littleEndian (bytes : List UInt8) : Nat :=
  bytes.foldr (fun byte n => byte.toNat + 256 * n) 0

/-- The number that `bytes` spell, the first byte the highest. -/
def bigEndian (bytes : List UInt8) : Nat :=
  bytes.foldl (fun n byte => 256 * n + byte.toNat) 0

/-- The sixteen words of a block; missing bytes are zero. -/
def wordsOfBlock (block : List UInt8) : Work :=
  Vector.ofFn fun (i : Fin 16) =>
    UInt64.ofNat (littleEndian ((block.drop (8 * i.val)).take 8))

def bytesOfWord (word : UInt64) : List UInt8 :=
  (List.range 8).map fun i => (word >>> (UInt64.ofNat (8 * i))).toUInt8

/-- Hash the blocks of `bytes`, of which there are at most `fuel`. The last block may be short. -/
def absorb : Nat → State → Nat → List UInt8 → State
  | 0, h, _, _ => h
  | fuel + 1, h, hashed, bytes =>
    if bytes.length ≤ blockBytes then
      compress h (wordsOfBlock bytes) (hashed + bytes.length) true
    else
      let h := compress h (wordsOfBlock (bytes.take blockBytes)) (hashed + blockBytes) false
      absorb fuel h (hashed + blockBytes) (bytes.drop blockBytes)

/-- The first `size` bytes of the digest of `message` under `key`. -/
def digest (size : Nat) (key message : List UInt8) : List UInt8 :=
  let parameters := 0x01010000 + 256 * key.length + size
  let h := initial.set 0 (initial[0] ^^^ UInt64.ofNat parameters)
  let keyBlock :=
    if key.isEmpty then [] else key ++ List.replicate (blockBytes - key.length) 0
  let bytes := keyBlock ++ message
  let final := absorb (bytes.length / blockBytes + 1) h 0 bytes
  (final.toList.flatMap bytesOfWord).take size

end AliasExpansion.Blake2b
