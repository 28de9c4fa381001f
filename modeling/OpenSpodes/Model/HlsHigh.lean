import OpenSpodes.ToMathlib.Bytes

/-! # The password function of the high-level mechanism

Mechanism 2 proves knowledge of a password by encrypting the padded challenge, block by block, with
AES-128 under the first sixteen password bytes. The encryption runs in place and expands the key
one round at a time, so a round is a function of the block, the current key and the round number.
-/

namespace OpenSpodes.HlsHigh

open Bytes

/-- One AES block or round key. -/
abbrev AesBlock := Vector UInt8 16

/-- `HLS_HIGH_S_BOX`. -/
def hlsHighSBox : ByteTable := #v[
  #v[99, 124, 119, 123, 242, 107, 111, 197, 48, 1, 103, 43, 254, 215, 171, 118],
  #v[202, 130, 201, 125, 250, 89, 71, 240, 173, 212, 162, 175, 156, 164, 114, 192],
  #v[183, 253, 147, 38, 54, 63, 247, 204, 52, 165, 229, 241, 113, 216, 49, 21],
  #v[4, 199, 35, 195, 24, 150, 5, 154, 7, 18, 128, 226, 235, 39, 178, 117],
  #v[9, 131, 44, 26, 27, 110, 90, 160, 82, 59, 214, 179, 41, 227, 47, 132],
  #v[83, 209, 0, 237, 32, 252, 177, 91, 106, 203, 190, 57, 74, 76, 88, 207],
  #v[208, 239, 170, 251, 67, 77, 51, 133, 69, 249, 2, 127, 80, 60, 159, 168],
  #v[81, 163, 64, 143, 146, 157, 56, 245, 188, 182, 218, 33, 16, 255, 243, 210],
  #v[205, 12, 19, 236, 95, 151, 68, 23, 196, 167, 126, 61, 100, 93, 25, 115],
  #v[96, 129, 79, 220, 34, 42, 144, 136, 70, 238, 184, 20, 222, 94, 11, 219],
  #v[224, 50, 58, 10, 73, 6, 36, 92, 194, 211, 172, 98, 145, 149, 228, 121],
  #v[231, 200, 55, 109, 141, 213, 78, 169, 108, 86, 244, 234, 101, 122, 174, 8],
  #v[186, 120, 37, 46, 28, 166, 180, 198, 232, 221, 116, 31, 75, 189, 139, 138],
  #v[112, 62, 181, 102, 72, 3, 246, 14, 97, 53, 87, 185, 134, 193, 29, 158],
  #v[225, 248, 152, 17, 105, 217, 142, 148, 155, 30, 135, 233, 206, 85, 40, 223],
  #v[140, 161, 137, 13, 191, 230, 66, 104, 65, 153, 45, 15, 176, 84, 187, 22]]

/-- `HLS_HIGH_R_CON`. -/
def hlsHighRCon : Vector UInt8 10 := #v[1, 2, 4, 8, 16, 32, 64, 128, 27, 54]

/-- `hls_high_galois_multiply`: doubling in the AES field. -/
def hlsHighGaloisMultiply (value : UInt8) : UInt8 :=
  if value >>> 7 ≠ 0 then (value <<< 1) ^^^ 0x1b else value <<< 1

/-- Add the round key and substitute every byte. -/
def addSubstitute (data key : AesBlock) : AesBlock :=
  (Vector.zipWith (· ^^^ ·) data key).map hlsHighSBox.lookup

/-- The byte moves of a round, written as the source's chain of swaps leaves them. -/
def shiftRows (d : AesBlock) : AesBlock :=
  #v[d[0], d[5], d[10], d[15], d[4], d[9], d[14], d[3],
    d[8], d[13], d[2], d[7], d[12], d[1], d[6], d[11]]

/-- One output byte of a column: its old value, the doubled sum with its neighbour, and the sum of all. -/
def mixByte (a next mix : UInt8) : UInt8 := a ^^^ hlsHighGaloisMultiply (a ^^^ next) ^^^ mix

/-- Mix the four bytes of every column. -/
def mixColumns (d : AesBlock) : AesBlock :=
  let column (a b c e : UInt8) : Vector UInt8 4 :=
    let mix := a ^^^ b ^^^ c ^^^ e
    #v[mixByte a b mix, mixByte b c mix, mixByte c e mix, mixByte e a mix]
  (column d[0] d[1] d[2] d[3] ++ column d[4] d[5] d[6] d[7]
    ++ column d[8] d[9] d[10] d[11] ++ column d[12] d[13] d[14] d[15])

/-- The next round key: the first four bytes take the substituted last word, the others chain. -/
def nextKey (round : Fin 10) (key : AesBlock) : AesBlock :=
  let s := hlsHighSBox.lookup
  let k0 := s key[13] ^^^ key[0] ^^^ hlsHighRCon.get round
  let k1 := s key[14] ^^^ key[1]
  let k2 := s key[15] ^^^ key[2]
  let k3 := s key[12] ^^^ key[3]
  let k4 := key[4] ^^^ k0
  let k5 := key[5] ^^^ k1
  let k6 := key[6] ^^^ k2
  let k7 := key[7] ^^^ k3
  let k8 := key[8] ^^^ k4
  let k9 := key[9] ^^^ k5
  let k10 := key[10] ^^^ k6
  let k11 := key[11] ^^^ k7
  #v[k0, k1, k2, k3, k4, k5, k6, k7, k8, k9, k10, k11,
    key[12] ^^^ k8, key[13] ^^^ k9, key[14] ^^^ k10, key[15] ^^^ k11]

/-- One turn of the round loop on the block and the running key. -/
def aesRound (state : AesBlock × AesBlock) (round : Fin 10) : AesBlock × AesBlock :=
  let shifted := shiftRows (addSubstitute state.1 state.2)
  let mixed := if round.val < 9 then mixColumns shifted else shifted
  (mixed, nextKey round state.2)

/-- `hls_high_aes1_encrypt_block`. -/
def hlsHighAes1EncryptBlock (data key : AesBlock) : AesBlock :=
  let state := (List.finRange 10).foldl aesRound (data, key)
  Vector.zipWith (· ^^^ ·) state.1 state.2

/-- A length rounded up to whole blocks. -/
def roundUp16 (n : ℕ) : ℕ := if n % 16 ≠ 0 then n + (16 - n % 16) else n

/-- The output length: the longer of challenge and password, in whole blocks. -/
def securedLen (dataLen secretLen : ℕ) : ℕ :=
  if secretLen > dataLen then roundUp16 secretLen else roundUp16 dataLen

/-- Encrypt `count` consecutive blocks under one key. -/
def encryptBlocks (key : AesBlock) (count : ℕ) (bytes : List UInt8) : List UInt8 :=
  (List.range count).flatMap fun pos =>
    (hlsHighAes1EncryptBlock (blockOf (bytes.drop (16 * pos))) key).toList

/-- `osp_hls_high_secure`; `none` is its failure return. -/
def hlsHighSecure (data secret : List UInt8) : Option (List UInt8) :=
  if secret.length = 0 ∨ data.length = 0 then none
  else
    let len := securedLen data.length secret.length
    if len > 64 then none
    else
      let key : AesBlock := blockOf secret
      some (encryptBlocks key (len / 16) (padTo len data))

end OpenSpodes.HlsHigh
