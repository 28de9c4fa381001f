import OpenSpodes.Model.Gbt
import OpenSpodes.Proofs.Encoders
import OpenSpodes.Proofs.FrameStream

/-! # Blocks over an unframed transport

A block of a general block transfer is written whole and read back whole. Over a transport without framing one send
call carries one block, and one receive call delivers it. `Wire.Plain` is a link of that kind, with what it still
hears and what it has sent.
-/

namespace OpenSpodes

open Bytes Machine Machine.Fallible

/-! ## Encoding -/

def GeneralBlock.control (gbt : GeneralBlock) : UInt8 :=
  UInt8.ofNat ((if gbt.lastBlock then 0x80 else 0) + (if gbt.streaming then 0x40 else 0) + gbt.window % 64)

def GeneralBlock.encoding (gbt : GeneralBlock) : List UInt8 :=
  [0xE0] ++ ([gbt.control] ++ (beBytes 2 gbt.blockNumber ++ (beBytes 2 gbt.blockNumberAck ++
    (dlmsLenBytes gbt.blockData.length ++ gbt.blockData))))

/-- The numbers fit their fields and the data its array. -/
structure GeneralBlock.Fits (gbt : GeneralBlock) : Prop where
  window : gbt.window < 64
  blockNumber : gbt.blockNumber < 2 ^ 16
  blockNumberAck : gbt.blockNumberAck < 2 ^ 16
  blockData : gbt.blockData.length ≤ 256

/-- The room that a block with so much data takes. -/
def blockRoom (payload : ℕ) : ℕ := 6 + (dlmsLenBytes payload).length + payload

section Codec

variable {gbt : GeneralBlock}

theorem GeneralBlock.length_encoding (gbt : GeneralBlock) : gbt.encoding.length = blockRoom gbt.blockData.length := by
  simp only [encoding, blockRoom, List.length_append, List.length_singleton, length_beBytes]
  omega

theorem blockRoom_le {payload : ℕ} (small : payload ≤ 256) : blockRoom payload ≤ 265 := by
  have := dlmsLenBytes_length_le (show payload ≤ 0xFFFF by omega)
  unfold blockRoom
  omega

theorem blockRoom_mono {less payload : ℕ} (le : less ≤ payload) (small : payload ≤ 256) :
    blockRoom less ≤ blockRoom payload := by
  have lengths : (dlmsLenBytes less).length ≤ (dlmsLenBytes payload).length := by
    unfold dlmsLenBytes dlmsMinOctets
    split_ifs <;> simp <;> omega
  unfold blockRoom
  omega

theorem gbtEncode_puts (gbt : GeneralBlock) : Puts (gbtEncode gbt) gbt.encoding :=
  (writeBytes_puts _ _).andThen ((writeBytes_puts _ _).andThen ((writeBytes_puts _ _).andThen
    ((writeBytes_puts _ _).andThen ((writeBytes_puts _ _).andThen (writeEach_puts _)))))

theorem GeneralBlock.control_fields (fits : gbt.Fits) : (gbt.control &&& 0x80 != 0) = gbt.lastBlock ∧
    (gbt.control &&& 0x40 != 0) = gbt.streaming ∧ (gbt.control &&& 0x3F).toNat = gbt.window := by
  have all : ∀ last streaming : Bool, ∀ window : Fin 64,
      let control := UInt8.ofNat ((if last then 0x80 else 0) + (if streaming then 0x40 else 0) + window)
      (control &&& 0x80 != 0) = last ∧ (control &&& 0x40 != 0) = streaming ∧ (control &&& 0x3F).toNat = window := by
    decide
  have same : gbt.window % 64 = gbt.window := Nat.mod_eq_of_lt fits.window
  rw [control, same]
  exact all gbt.lastBlock gbt.streaming ⟨gbt.window, fits.window⟩

/-- The block's data is read whole: what the array held before does not show. -/
theorem gbtDecode_takes (fits : gbt.Fits) (stale : List UInt8) : Takes (gbtDecode stale) gbt.encoding gbt := by
  obtain ⟨last, streaming, window⟩ := GeneralBlock.control_fields fits
  have small := fits.blockData
  refine (Takes.u8 0xE0).bind (.check (by decide) ((Takes.u8 _).bind ((Takes.uint fits.blockNumber).bind
    ((Takes.uint fits.blockNumberAck).bind ((Takes.len (by omega)).bind (.check (by omega) ?_))))))
  intro b rest offers
  have present : min b.unread gbt.blockData.length = gbt.blockData.length := by
    rw [offers.unread, List.length_append]
    omega
  have nothing : (padTo gbt.blockData.length stale).drop gbt.blockData.length = [] :=
    List.drop_eq_nil_of_le (length_padTo _ _).le
  rw [get_bind, present, bind_of_ok offers.takeBytes, nothing, List.append_nil, last, streaming, window]
  rfl

theorem gbtDecodeApdu_encoding (fits : gbt.Fits) (stale : List UInt8) : gbtDecodeApdu stale gbt.encoding = .ok gbt := by
  have length := gbt.length_encoding
  have room := blockRoom_le fits.blockData
  obtain ⟨c, read⟩ := (gbtDecode_takes fits stale).ofBytes (by omega)
  rw [gbtDecodeApdu, read]

end Codec

/-! ## Links -/

/-- A link without framing whose transport takes every frame: the sizes of its buffers, what it hears next and what it
has sent. -/
structure Wire.Plain (w : Wire) (txRoom rxRoom : ℕ) (rx : List RxEvent) (sent : List (List UInt8)) : Prop where
  framing : w.framing = .none
  sends : ∀ result ∈ w.world.sends, result = .ok
  txRoom : txRoom ≤ w.txBuf.length
  rxRoom : rxRoom ≤ w.rxBuf.length
  rx : w.world.rx = rx
  sent : w.world.sent = sent

section Links

variable {w : Wire} {txRoom rxRoom : ℕ} {rx : List RxEvent} {sent : List (List UInt8)} {gbt : GeneralBlock}

theorem Wire.Plain.transportSendApdu {apdu : List UInt8} (plain : w.Plain txRoom rxRoom rx sent)
    (small : apdu.length ≤ framedSize) :
    ∃ after, transportSendApdu apdu w = some (.ok, after) ∧ after.Plain txRoom rxRoom rx (sent ++ [apdu]) := by
  have framed : frameApdu w apdu = .ok apdu := by
    rw [frameApdu, plain.framing]
    exact if_neg (Nat.not_lt.mpr small)
  have success : w.world.sends.headD .ok = .ok := by
    cases script : w.world.sends with
    | nil => rfl
    | cons result rest => exact plain.sends result (by simp [script])
  refine ⟨w.setWorld { w.world with sends := w.world.sends.tail, sent := w.world.sent ++ [apdu] }, ?_, plain.framing,
    ?_, plain.txRoom, plain.rxRoom, plain.rx, ?_⟩
  · rw [OpenSpodes.transportSendApdu, get_bind_apply, framed]
    dsimp only
    rw [transportSend, get_bind_apply, modify_bind_apply, success]
    rfl
  · exact fun result member => plain.sends result (List.mem_of_mem_tail member)
  · rw [← plain.sent]
    rfl

theorem Wire.Plain.sendBlock (plain : w.Plain txRoom rxRoom rx sent) (fits : gbt.Fits)
    (room : blockRoom gbt.blockData.length ≤ txRoom) :
    ∃ after, gbtSendBlock gbt w = some (.ok, after) ∧ after.Plain txRoom rxRoom rx (sent ++ [gbt.encoding]) := by
  have length := gbt.length_encoding
  have bound := blockRoom_le fits.blockData
  have inside := plain.txRoom
  obtain ⟨buf, encoded, out⟩ := @Puts.init _ _ (gbtEncode_puts gbt) w.txBuf.length (by omega)
  have filled : (w.fillTx gbt.encoding).Plain txRoom rxRoom rx sent :=
    { plain with txRoom := by rw [Wire.fillTx, length_overwrite]; exact plain.txRoom.trans (le_max_left _ _) }
  obtain ⟨after, returned, later⟩ := @Wire.Plain.transportSendApdu _ _ _ _ _ gbt.encoding filled (by
    simp only [framedSize, hdlcMaxFrameSize]
    omega)
  refine ⟨after, ?_, later⟩
  rw [gbtSendBlock, get_bind_apply, encoded]
  dsimp only
  rw [modify_bind_apply, out]
  exact returned

theorem Wire.Plain.recvBlock (plain : w.Plain txRoom rxRoom (.bytes gbt.encoding :: rx) sent) (fits : gbt.Fits)
    (room : blockRoom gbt.blockData.length ≤ rxRoom) (stale : List UInt8) :
    ∃ after, gbtRecvBlock stale w = some (.ok gbt, after) ∧ after.Plain txRoom rxRoom rx sent := by
  have length := gbt.length_encoding
  have bound := blockRoom_le fits.blockData
  have inside := plain.rxRoom
  have short : gbt.encoding.length ≤ framedSize := by
    simp only [framedSize, hdlcMaxFrameSize]
    omega
  have read : transportRecvApdu w.rxBuf.length w =
      some (.ok gbt.encoding, w.setWorld { w.world with rx := rx }) := by
    rw [transportRecvApdu_bytes plain.rx short, plain.framing, unframeApdu]
    exact congrArg (fun apdu => some (apdu, _)) (if_neg (by omega))
  refine ⟨(w.setWorld { w.world with rx := rx }).fillRx gbt.encoding, ?_, ?_⟩
  · rw [gbtRecvBlock, get_bind_apply, bind_of_some read]
    dsimp only
    rw [modify_bind_apply, gbtDecodeApdu_encoding fits]
    rfl
  · exact { plain with
      rx := rfl, rxRoom := by rw [Wire.fillRx, length_overwrite]; exact inside.trans (le_max_left _ _) }

theorem Wire.Plain.recvExpired (plain : w.Plain txRoom rxRoom (.expired :: rx) sent) (stale : List UInt8) :
    ∃ after, gbtRecvBlock stale w = some (.error .timeout, after) ∧ after.Plain txRoom rxRoom rx sent := by
  refine ⟨w.setWorld { w.world with rx := rx }, ?_, { plain with rx := rfl }⟩
  simp only [gbtRecvBlock, transportRecvApdu, transportRecv, nextRx, bind_assoc, get_bind_apply, plain.rx,
    modify_bind_apply, pure_bind]
  rfl

/-- Whatever arrives, the transport takes it off the link and the attempt to decode it returns. -/
theorem Wire.Plain.recvAny {piece : List UInt8} (plain : w.Plain txRoom rxRoom (.bytes piece :: rx) sent)
    (stale : List UInt8) : ∃ received after, gbtRecvBlock stale w = some (received, after) ∧
      after.Plain txRoom rxRoom rx sent ∧ received ≠ .error .ok := by
  let taken := w.setWorld { w.world with rx := rx }
  let apdu := piece.take framedSize
  have read : transportRecvApdu w.rxBuf.length w =
      some (if apdu.length > w.rxBuf.length then .error .nomem else .ok apdu, taken) := by
    simp only [transportRecvApdu, transportRecv, nextRx, bind_assoc, get_bind_apply, plain.rx, modify_bind_apply, pure_bind]
    exact congrArg (fun framing => some (unframeApdu framing apdu _, taken)) plain.framing
  rw [gbtRecvBlock, get_bind_apply, bind_of_some read]
  split_ifs
  · exact ⟨_, taken, rfl, { plain with rx := rfl }, by simp⟩
  · refine ⟨gbtDecodeApdu stale apdu, taken.fillRx apdu, rfl, { plain with
      rx := rfl, rxRoom := by rw [Wire.fillRx, length_overwrite]; exact plain.rxRoom.trans (le_max_left _ _) }, ?_⟩
    rw [gbtDecodeApdu]
    split <;> simp

end Links

end OpenSpodes
