import OpenSpodes.Model.KuznyechikTables

/-! # Kuznyechik: block cipher, CMAC, counter mode and the transport AEAD

The cipher works in place on a 16-byte block; the linear layer rotates the index of the byte it
rewrites instead of shifting the block. CMAC and counter mode are the two users of the cipher, and
the transport AEAD combines them: the first half of the 64-byte key encrypts and the second half
authenticates the initialisation vector, the security control byte and the transmitted bytes.
-/

namespace OpenSpodes.Kuznyechik

open Bytes

/-- `kuz_block`. -/
abbrev KuzBlock := Vector UInt8 16

/-- `kuz_get_idx`: index arithmetic modulo the block length. -/
def kuzGetIdx (b i : Fin 16) : Fin 16 := b - i

/-- The table entry selected by block byte `b` at rotation `i`. -/
def kuzTable (table : ByteTable) (block : KuzBlock) (b i : Fin 16) : UInt8 :=
  table.lookup (block.get (kuzGetIdx b i))

/-- `kuz_l_step`: rewrite one byte with the linear combination of all sixteen. -/
def kuzLStep (block : KuzBlock) (i : Fin 16) : KuzBlock :=
  let x := block.get (kuzGetIdx 15 i)
    ^^^ kuzTable kuznGft148 block 14 i ^^^ kuzTable kuznGft32 block 13 i
    ^^^ kuzTable kuznGft133 block 12 i ^^^ kuzTable kuznGft16 block 11 i
    ^^^ kuzTable kuznGft194 block 10 i ^^^ kuzTable kuznGft192 block 9 i
    ^^^ block.get (kuzGetIdx 8 i) ^^^ kuzTable kuznGft251 block 7 i
    ^^^ block.get (kuzGetIdx 6 i) ^^^ kuzTable kuznGft192 block 5 i
    ^^^ kuzTable kuznGft194 block 4 i ^^^ kuzTable kuznGft16 block 3 i
    ^^^ kuzTable kuznGft133 block 2 i ^^^ kuzTable kuznGft32 block 1 i
    ^^^ kuzTable kuznGft148 block 0 i
  block.set (kuzGetIdx 15 i) x

/-- `kuz_xor`. -/
def kuzXor (a b : KuzBlock) : KuzBlock := Vector.zipWith (· ^^^ ·) a b

/-- `kuz_lsx`: add the key, substitute, then sixteen linear steps. -/
def kuzLsx (block key : KuzBlock) : KuzBlock :=
  let substituted := (kuzXor block key).map kuznP.lookup
  (List.finRange 16).foldl kuzLStep substituted

/-- `kuz_f`: eight Feistel rounds of the key schedule, two in each turn of the loop. -/
def kuzF (k1 k2 : KuzBlock) (n : Fin 4) : KuzBlock × KuzBlock :=
  (List.finRange 4).foldl (fun (k : KuzBlock × KuzBlock) (i : Fin 4) =>
    let k2 := kuzXor k.2 (kuzLsx k.1 (kuznKeygen.get ⟨8 * n + 2 * i, by omega⟩))
    let k1 := kuzXor k.1 (kuzLsx k2 (kuznKeygen.get ⟨8 * n + 2 * i + 1, by omega⟩))
    (k1, k2)) (k1, k2)

structure KuzRoundKeys where
  inner : List KuzBlock
  last : KuzBlock

/-- `kuz_expand`. -/
def kuzExpand (key : Vector UInt8 32) : KuzRoundKeys :=
  let k1 : KuzBlock := (key.take 16).cast rfl
  let k2 : KuzBlock := (key.drop 16).cast rfl
  let keys := (List.finRange 4).scanl (fun k n => kuzF k.1 k.2 n) (k1, k2)
  let all := keys.flatMap fun k => [k.1, k.2]
  ⟨all.take 9, all.getD 9 k2⟩

/-- `kuz_encrypt_block`: nine full rounds, then the last key. -/
def kuzEncryptBlock (keys : KuzRoundKeys) (block : KuzBlock) : KuzBlock :=
  kuzXor (keys.inner.foldl kuzLsx block) keys.last

/-- `kuz_dbl`: doubling in the field of 128-bit blocks. -/
def kuzDbl (block : KuzBlock) : KuzBlock :=
  let carry := block.get 0 >>> 7
  Vector.ofFn fun i : Fin 16 =>
    if last : i.val < 15 then (block.get i <<< 1) ||| (block.get ⟨i + 1, by omega⟩ >>> 7)
    else (block.get i <<< 1) ^^^ (if carry ≠ 0 then 0x87 else 0)

/-- The block that ends a CMAC computation, padded and masked with one of the two subkeys. -/
def cmacLast (k1 k2 : KuzBlock) (tail : List UInt8) : KuzBlock :=
  if tail.length = 16 then kuzXor (blockOf tail) k1 else kuzXor (blockOf (tail ++ [0x80])) k2

/-- `osp_gost_kuznyechik_cmac`. -/
def gostKuznyechikCmac (key : Vector UInt8 32) (data : List UInt8) : KuzBlock :=
  let keys := kuzExpand key
  let k1 := kuzDbl (kuzEncryptBlock keys (Vector.replicate 16 0))
  let k2 := kuzDbl k1
  let nblocks := if data.length = 0 then 1 else (data.length + 15) / 16
  let state := (List.range (nblocks - 1)).foldl
    (fun state b => kuzEncryptBlock keys (kuzXor state (blockOf (data.drop (16 * b)))))
    (Vector.replicate 16 0)
  kuzEncryptBlock keys (kuzXor state (cmacLast k1 k2 (data.drop (16 * (nblocks - 1)))))

/-- `osp_gost_kuznyechik_ctr`: the key stream is the encryption of `iv` followed by 1, 2, and so on. -/
def gostKuznyechikCtr (key : Vector UInt8 32) (iv : Vector UInt8 12) (input : List UInt8) :
    List UInt8 :=
  let keys := kuzExpand key
  (List.range ((input.length + 15) / 16)).flatMap fun b =>
    let ctr := kuzEncryptBlock keys (blockOf (iv.toList ++ beBytes 4 (b + 1)))
    List.zipWith (· ^^^ ·) ((input.drop (16 * b)).take 16) ctr.toList

/-- `osp_gost_kuznyechik_cmac96`: the first twelve bytes of the CMAC. -/
def gostKuznyechikCmac96 (key : Vector UInt8 32) (data : List UInt8) : List UInt8 :=
  (gostKuznyechikCmac key data).toList.take 12

/-- The part of the 64-byte key that encrypts. -/
def keyEncr (kEm : Vector UInt8 64) : Vector UInt8 32 := (kEm.take 32).cast rfl

/-- The part of the 64-byte key that authenticates. -/
def keyMac (kEm : Vector UInt8 64) : Vector UInt8 32 := (kEm.drop 32).cast rfl

/-- `kuzn_build_tag`; `none` is its failure when the input exceeds the work buffer. -/
def kuznBuildTag (kM : Vector UInt8 32) (iv : Vector UInt8 12) (sc : UInt8) (af data : List UInt8) :
    Option (List UInt8) :=
  if 12 + 1 + af.length + data.length > 12 + 1 + 512 + 1024 then none
  else some (gostKuznyechikCmac96 kM (iv.toList ++ [sc] ++ af ++ data))

/-- `osp_gost_kuzn_aead_encrypt`: transmitted bytes and the tag, which only `auth` computes. -/
def gostKuznAeadEncrypt (kEm : Vector UInt8 64) (iv : Vector UInt8 12) (sc : UInt8)
    (af plaintext : List UInt8) (auth encr : Bool) : Option (List UInt8 × List UInt8) :=
  match auth, encr with
  | true, true =>
      let out := gostKuznyechikCtr (keyEncr kEm) iv plaintext
      (kuznBuildTag (keyMac kEm) iv sc af out).map fun tag => (out, tag)
  | true, false =>
      (kuznBuildTag (keyMac kEm) iv sc af plaintext).map fun tag => (plaintext, tag)
  | false, true => some (gostKuznyechikCtr (keyEncr kEm) iv plaintext, [])
  | false, false => if plaintext.length = 0 then none else some (plaintext, [])

/-- `osp_gost_kuzn_aead_decrypt`; a wrong tag is `-2`, every other failure `-1`. -/
def gostKuznAeadDecrypt (kEm : Vector UInt8 64) (iv : Vector UInt8 12) (sc : UInt8)
    (af input : List UInt8) (auth encr : Bool) (tag : List UInt8) : Except Int (List UInt8) :=
  match auth, encr with
  | true, _ =>
      match kuznBuildTag (keyMac kEm) iv sc af input with
      | none => .error (-1)
      | some expected =>
          if expected ≠ tag then .error (-2)
          else .ok (if encr then gostKuznyechikCtr (keyEncr kEm) iv input else input)
  | false, true => .ok (gostKuznyechikCtr (keyEncr kEm) iv input)
  | false, false => if input.length = 0 then .error (-1) else .ok input

/-- `osp_hls_gost_cmac`: CMAC over `iv`, security control byte and both challenges. -/
def hlsGostCmac (kEm : Vector UInt8 64) (iv : Vector UInt8 12) (sc : UInt8)
    (challengeA challengeB : List UInt8) : Option KuzBlock :=
  if 12 + 1 + challengeA.length + challengeB.length > 12 + 1 + 64 * 2 then none
  else some (gostKuznyechikCmac (keyMac kEm) (iv.toList ++ [sc] ++ challengeA ++ challengeB))

end OpenSpodes.Kuznyechik
