/-!
# SHA-256

The digest of FIPS 180-4 over a byte array, and its lowercase hexadecimal text.
The message is padded with a one bit, zeros and its bit length to a multiple of
64 bytes; each block goes through 64 rounds of the compression function.
-/

namespace NodeFlow

namespace Sha256

/-- The round constants. -/
def roundConstants : Array UInt32 := #[
  0x428a2f98, 0x71374491, 0xb5c0fbcf, 0xe9b5dba5, 0x3956c25b, 0x59f111f1, 0x923f82a4, 0xab1c5ed5,
  0xd807aa98, 0x12835b01, 0x243185be, 0x550c7dc3, 0x72be5d74, 0x80deb1fe, 0x9bdc06a7, 0xc19bf174,
  0xe49b69c1, 0xefbe4786, 0x0fc19dc6, 0x240ca1cc, 0x2de92c6f, 0x4a7484aa, 0x5cb0a9dc, 0x76f988da,
  0x983e5152, 0xa831c66d, 0xb00327c8, 0xbf597fc7, 0xc6e00bf3, 0xd5a79147, 0x06ca6351, 0x14292967,
  0x27b70a85, 0x2e1b2138, 0x4d2c6dfc, 0x53380d13, 0x650a7354, 0x766a0abb, 0x81c2c92e, 0x92722c85,
  0xa2bfe8a1, 0xa81a664b, 0xc24b8b70, 0xc76c51a3, 0xd192e819, 0xd6990624, 0xf40e3585, 0x106aa070,
  0x19a4c116, 0x1e376c08, 0x2748774c, 0x34b0bcb5, 0x391c0cb3, 0x4ed8aa4a, 0x5b9cca4f, 0x682e6ff3,
  0x748f82ee, 0x78a5636f, 0x84c87814, 0x8cc70208, 0x90befffa, 0xa4506ceb, 0xbef9a3f7, 0xc67178f2]

/-- The initial hash value. -/
def initial : Array UInt32 := #[
  0x6a09e667, 0xbb67ae85, 0x3c6ef372, 0xa54ff53a, 0x510e527f, 0x9b05688c, 0x1f83d9ab, 0x5be0cd19]

/-- Rotate right. -/
def rotr (x : UInt32) (n : UInt32) : UInt32 := (x >>> n) ||| (x <<< (32 - n))

/-- The message padded to a multiple of 64 bytes. -/
def pad (msg : ByteArray) : ByteArray :=
  let len := msg.size
  let zeros := (119 - len % 64) % 64
  let bits := len * 8
  let lenBytes := (List.range 8).reverse.map fun i => ((bits >>> (8 * i)) % 256).toUInt8
  (msg.push 0x80 ++ ⟨Array.replicate zeros 0⟩) ++ ⟨lenBytes.toArray⟩

/-- The big-endian word at a byte offset. -/
def word (b : ByteArray) (i : Nat) : UInt32 :=
  (b.get! i).toUInt32 <<< 24 ||| (b.get! (i + 1)).toUInt32 <<< 16 |||
    (b.get! (i + 2)).toUInt32 <<< 8 ||| (b.get! (i + 3)).toUInt32

/-- The 64-word message schedule of the block at a byte offset. -/
def schedule (b : ByteArray) (off : Nat) : Array UInt32 :=
  (List.range 48).foldl (fun (w : Array UInt32) t =>
    let i := t + 16
    let w15 := w[i - 15]!
    let w2 := w[i - 2]!
    let s0 := rotr w15 7 ^^^ rotr w15 18 ^^^ (w15 >>> 3)
    let s1 := rotr w2 17 ^^^ rotr w2 19 ^^^ (w2 >>> 10)
    w.push (w[i - 16]! + s0 + w[i - 7]! + s1))
    ((List.range 16).toArray.map fun j => word b (off + 4 * j))

/-- One application of the compression function. -/
def compress (h : Array UInt32) (b : ByteArray) (off : Nat) : Array UInt32 :=
  let w := schedule b off
  let (a, bb, c, d, e, f, g, hh) := (List.range 64).foldl
    (fun (st : UInt32 × UInt32 × UInt32 × UInt32 × UInt32 × UInt32 × UInt32 × UInt32) t =>
      let (a, b, c, d, e, f, g, h) := st
      let s1 := rotr e 6 ^^^ rotr e 11 ^^^ rotr e 25
      let ch := (e &&& f) ^^^ (~~~e &&& g)
      let t1 := h + s1 + ch + roundConstants[t]! + w[t]!
      let s0 := rotr a 2 ^^^ rotr a 13 ^^^ rotr a 22
      let maj := (a &&& b) ^^^ (a &&& c) ^^^ (b &&& c)
      let t2 := s0 + maj
      (t1 + t2, a, b, c, d + t1, e, f, g))
    (h[0]!, h[1]!, h[2]!, h[3]!, h[4]!, h[5]!, h[6]!, h[7]!)
  #[h[0]! + a, h[1]! + bb, h[2]! + c, h[3]! + d, h[4]! + e, h[5]! + f, h[6]! + g, h[7]! + hh]

/-- The eight words of the digest. -/
def digest (msg : ByteArray) : Array UInt32 :=
  let p := pad msg
  (List.range (p.size / 64)).foldl (fun h k => compress h p (64 * k)) initial

/-- The digest of a text's UTF-8 bytes, as 64 lowercase hexadecimal digits. -/
def hexDigest (s : String) : String :=
  String.join ((digest s.toUTF8).toList.map fun w =>
    let ds := Nat.toDigits 16 w.toNat
    String.ofList (List.replicate (8 - ds.length) '0' ++ ds))

end Sha256

end NodeFlow
