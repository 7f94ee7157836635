/-!
# SHA-256

The SHA-256 hash of a byte string (FIPS 180-4): the message is padded with a one bit, zeros and
its bit length to a multiple of 64 bytes, and each block updates eight 32-bit words by 64 rounds.
`sha256Hex` writes the 32-byte hash as 64 lowercase hex digits.

Source: the SHA-256 digests of `orgform-render/src/artifact.rs:54-65` and
`orgform-engine/src/plugin/copy_file.rs:67-79`.
-/

namespace OrgDeploy.Digest

/-- The round constants. -/
def roundConstants : Array UInt32 := #[
  0x428a2f98, 0x71374491, 0xb5c0fbcf, 0xe9b5dba5, 0x3956c25b, 0x59f111f1, 0x923f82a4, 0xab1c5ed5,
  0xd807aa98, 0x12835b01, 0x243185be, 0x550c7dc3, 0x72be5d74, 0x80deb1fe, 0x9bdc06a7, 0xc19bf174,
  0xe49b69c1, 0xefbe4786, 0x0fc19dc6, 0x240ca1cc, 0x2de92c6f, 0x4a7484aa, 0x5cb0a9dc, 0x76f988da,
  0x983e5152, 0xa831c66d, 0xb00327c8, 0xbf597fc7, 0xc6e00bf3, 0xd5a79147, 0x06ca6351, 0x14292967,
  0x27b70a85, 0x2e1b2138, 0x4d2c6dfc, 0x53380d13, 0x650a7354, 0x766a0abb, 0x81c2c92e, 0x92722c85,
  0xa2bfe8a1, 0xa81a664b, 0xc24b8b70, 0xc76c51a3, 0xd192e819, 0xd6990624, 0xf40e3585, 0x106aa070,
  0x19a4c116, 0x1e376c08, 0x2748774c, 0x34b0bcb5, 0x391c0cb3, 0x4ed8aa4a, 0x5b9cca4f, 0x682e6ff3,
  0x748f82ee, 0x78a5636f, 0x84c87814, 0x8cc70208, 0x90befffa, 0xa4506ceb, 0xbef9a3f7, 0xc67178f2]

/-- The initial hash words. -/
def initialHash : Array UInt32 := #[
  0x6a09e667, 0xbb67ae85, 0x3c6ef372, 0xa54ff53a, 0x510e527f, 0x9b05688c, 0x1f83d9ab, 0x5be0cd19]

/-- Rotation right by `n` bits. -/
def rotr (x : UInt32) (n : UInt32) : UInt32 := (x >>> n) ||| (x <<< (32 - n))

/-- The padded message: the bytes, `0x80`, zeros, and the bit length as 8 big-endian bytes. -/
def pad (msg : List UInt8) : Array UInt8 :=
  let len := msg.length
  let zeros := (119 - len % 64) % 64
  let bits := 8 * len
  let tail : List UInt8 := (List.range 8).reverse.map fun i => (bits >>> (8 * i)).toUInt8
  (msg ++ [(0x80 : UInt8)] ++ List.replicate zeros (0 : UInt8) ++ tail).toArray

/-- The 64-word schedule of the block starting at byte `off`. -/
def schedule (data : Array UInt8) (off : Nat) : Array UInt32 :=
  let word (i : Nat) : UInt32 :=
    let b (j : Nat) : UInt32 := (data[off + 4 * i + j]?.getD 0).toUInt32
    (b 0 <<< 24) ||| (b 1 <<< 16) ||| (b 2 <<< 8) ||| b 3
  let first := (List.range 16).map word
  (List.range 48).foldl (fun (w : Array UInt32) t =>
    let i := t + 16
    let w15 := w[i - 15]?.getD 0
    let w2 := w[i - 2]?.getD 0
    let s0 := rotr w15 7 ^^^ rotr w15 18 ^^^ (w15 >>> 3)
    let s1 := rotr w2 17 ^^^ rotr w2 19 ^^^ (w2 >>> 10)
    w.push ((w[i - 16]?.getD 0) + s0 + (w[i - 7]?.getD 0) + s1)) first.toArray

/-- One block's 64 rounds added to the hash words. -/
def compress (h : Array UInt32) (w : Array UInt32) : Array UInt32 :=
  let get (a : Array UInt32) (i : Nat) : UInt32 := a[i]?.getD 0
  let (a, b, c, d, e, f, g, hh) :=
    (List.range 64).foldl (fun (a, b, c, d, e, f, g, hh) i =>
      let s1 := rotr e 6 ^^^ rotr e 11 ^^^ rotr e 25
      let ch := (e &&& f) ^^^ ((~~~ e) &&& g)
      let t1 := hh + s1 + ch + get roundConstants i + get w i
      let s0 := rotr a 2 ^^^ rotr a 13 ^^^ rotr a 22
      let maj := (a &&& b) ^^^ (a &&& c) ^^^ (b &&& c)
      let t2 := s0 + maj
      (t1 + t2, a, b, c, d + t1, e, f, g))
      (get h 0, get h 1, get h 2, get h 3, get h 4, get h 5, get h 6, get h 7)
  #[get h 0 + a, get h 1 + b, get h 2 + c, get h 3 + d, get h 4 + e, get h 5 + f, get h 6 + g,
    get h 7 + hh]

/-- The eight hash words of a message. -/
def sha256Words (msg : List UInt8) : Array UInt32 :=
  let data := pad msg
  (List.range (data.size / 64)).foldl (fun h blk => compress h (schedule data (64 * blk)))
    initialHash

/-- Two lowercase hex digits of a byte. -/
def byteHex (b : Nat) : String :=
  let digit (n : Nat) : Char := if n < 10 then Char.ofNat (48 + n) else Char.ofNat (87 + n)
  String.ofList [digit (b / 16 % 16), digit (b % 16)]

/-- The hash of a message as 64 lowercase hex digits. -/
def sha256Hex (msg : List UInt8) : String :=
  String.join ((sha256Words msg).toList.flatMap fun (w : UInt32) =>
    let n := w.toNat
    [byteHex (n / 16777216), byteHex (n / 65536 % 256), byteHex (n / 256 % 256), byteHex (n % 256)])

/-- The UTF-8 bytes of a text. -/
def utf8 (s : String) : List UInt8 := s.toUTF8.toList

end OrgDeploy.Digest
