import Ipcf.Crc
import Ipcf.Framework.Endian

/-!
# The hash function of `lib/hash.c`

`hash_bytes` is Murmur over the 32-bit words of the key in little-endian order
(`get_unaligned_u32` on this host), with the bytes that are left over padded with zeros.
-/

namespace Ipcf

/-- `hash_rot` -/
def hashRot (x : UInt32) (k : UInt32) : UInt32 := x <<< k ||| x >>> (32 - k)

/-- `mhash_add__` -/
def mhashAddWord (hash data : UInt32) : UInt32 :=
  hash ^^^ hashRot (data * 0xcc9e2d51) 15 * 0x1b873593

/-- `mhash_add` -/
def mhashAdd (hash data : UInt32) : UInt32 := hashRot (mhashAddWord hash data) 13 * 5 + 0xe6546b64

/-- `mhash_finish` -/
def mhashFinish (hash : UInt32) (n : ℕ) : UInt32 :=
  let hash := hash ^^^ UInt32.ofNat n
  let hash := hash ^^^ hash >>> 16
  let hash := hash * 0x85ebca6b
  let hash := hash ^^^ hash >>> 13
  let hash := hash * 0xc2b2ae35
  hash ^^^ hash >>> 16

/-- The loop of `hash_bytes`, and the bytes that are left over. -/
def hashWords (hash : UInt32) : Bytes → UInt32
  | a :: b :: c :: d :: rest => hashWords (mhashAdd hash (ofLe32 a b c d)) rest
  | [a, b, c] => mhashAddWord hash (ofLe32 a b c 0)
  | [a, b] => mhashAddWord hash (ofLe32 a b 0 0)
  | [a] => mhashAddWord hash (ofLe32 a 0 0 0)
  | [] => hash

/-- `hash_bytes` -/
def hashBytes (p : Bytes) : UInt32 := mhashFinish (hashWords 0 p) p.length

end Ipcf
