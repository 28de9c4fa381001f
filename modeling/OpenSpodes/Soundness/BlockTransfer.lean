import Mathlib.Tactic.Linarith
import OpenSpodes.Machine.Conversation
import OpenSpodes.Proofs.GbtBlocks

/-! # General block transfer between two parties

The receiver acknowledges every block but the last one, as soon as the sender announces a window. The sender sends a
window of blocks, reads one acknowledgement and takes it for the one of the whole window. The two agree when the window
is one block or when the sender never waits; otherwise the first acknowledgement, of the first block, ends the transfer.
-/

namespace OpenSpodes

open Bytes Machine

/-- A transfer of bytes of the sender's own, with the number of blocks it takes. -/
structure BlockTransfer where
  apdu : List UInt8
  payload : ℕ
  window : ℕ
  streaming : Bool
  nonempty : apdu ≠ []
  bounded : apdu.length ≤ 4096
  payloadPos : 0 < payload
  payloadMax : payload ≤ 256
  windowMax : window ≤ 63

namespace BlockTransfer

def send (t : BlockTransfer) : GbtSend := ⟨.own t.apdu, t.payload, t.window, t.streaming⟩

def count (t : BlockTransfer) : ℕ := (t.apdu.length + t.payload - 1) / t.payload

def block (t : BlockTransfer) (i : ℕ) : GeneralBlock :=
  ⟨t.apdu.length ≤ (i + 1) * t.payload, t.streaming, t.window, i + 1, 0, (t.apdu.drop (i * t.payload)).take t.payload⟩

def ack (t : BlockTransfer) (i : ℕ) : GeneralBlock := ⟨true, false, t.window, 1, i + 1, []⟩

def blocks (t : BlockTransfer) (n : ℕ) : List (List UInt8) := (List.range n).map fun i => (t.block i).encoding

/-- The first acknowledgements on the wire; without a window there are none. -/
def acks (t : BlockTransfer) (n : ℕ) : List (List UInt8) :=
  if t.window = 0 then [] else (List.range n).map fun i => (t.ack i).encoding

variable {t : BlockTransfer} {i n : ℕ}

theorem lt_count_iff : i < t.count ↔ i * t.payload < t.apdu.length := by
  have := t.payloadPos
  rw [count, Nat.lt_div_iff_mul_lt (by omega)]
  omega

theorem count_le_iff : t.count ≤ n ↔ t.apdu.length ≤ n * t.payload := by
  rw [← not_lt, lt_count_iff, not_lt]

theorem count_pos (t : BlockTransfer) : 0 < t.count := by
  rw [lt_count_iff, Nat.zero_mul]
  exact List.length_pos_iff.mpr t.nonempty

theorem count_bounded (t : BlockTransfer) : t.count ≤ 4096 := by
  rw [count_le_iff]
  have := t.bounded
  have := t.payloadPos
  nlinarith

theorem block_fits (inside : i < t.count) : (t.block i).Fits := by
  have := t.windowMax
  have := t.payloadMax
  have := t.count_bounded
  constructor
  case window => change t.window < 64; omega
  case blockNumber => change i + 1 < 2 ^ 16; omega
  case blockNumberAck => change 0 < 2 ^ 16; omega
  case blockData =>
    change ((t.apdu.drop _).take _).length ≤ 256
    exact (List.length_take_le _ _).trans t.payloadMax

theorem ack_fits (inside : i < t.count) : (t.ack i).Fits := by
  have := t.windowMax
  have := t.count_bounded
  constructor
  case window => change t.window < 64; omega
  case blockNumber => change 1 < 2 ^ 16; omega
  case blockNumberAck => change i + 1 < 2 ^ 16; omega
  case blockData => exact Nat.zero_le _

theorem blocks_succ (t : BlockTransfer) (n : ℕ) : t.blocks (n + 1) = t.blocks n ++ [(t.block n).encoding] := by
  simp [blocks, List.range_succ]

theorem acks_succ (confirmed : t.window ≠ 0) (n : ℕ) : t.acks (n + 1) = t.acks n ++ [(t.ack n).encoding] := by
  simp [acks, confirmed, List.range_succ]

theorem acks_of_unconfirmed (unconfirmed : t.window = 0) (n : ℕ) : t.acks n = [] := if_pos unconfirmed

/-! ## The sender -/

def sentUpTo (t : BlockTransfer) (i inWindow : ℕ) : GbtPos := ⟨min (i * t.payload) t.apdu.length, i + 1, inWindow⟩

def Waits (t : BlockTransfer) (i inWindow : ℕ) : Prop := t.window > 0 ∧ i + 1 < t.count ∧ inWindow + 1 ≥ t.window

instance (t : BlockTransfer) (i inWindow : ℕ) : Decidable (t.Waits i inWindow) := inferInstanceAs (Decidable (_ ∧ _ ∧ _))

section Sender

variable {stale : List UInt8} {w : Wire} {rxRoom fuel inWindow : ℕ} {rx : List RxEvent} {sent : List (List UInt8)}

def resumed (t : BlockTransfer) (stale : List UInt8) (fuel : ℕ) (pos : GbtPos) : Except Err ℕ → Program Wire Err
  | .error err => return err
  | .ok acked => gbtSendLoop stale t.send fuel (gbtResume t.send pos acked)

/-- One turn of the sender's loop: a block leaves, and behind it there is a wait or the next turn. -/
theorem gbtSendLoop_turn (stale : List UInt8) (fuel inWindow : ℕ) (inside : i < t.count)
    (plain : w.Plain (blockRoom t.payload) rxRoom rx sent) :
    ∃ after, after.Plain (blockRoom t.payload) rxRoom rx (sent ++ [(t.block i).encoding]) ∧
      (¬t.Waits i inWindow → gbtSendLoop stale t.send (fuel + 1) (t.sentUpTo i inWindow) w =
        gbtSendLoop stale t.send fuel (t.sentUpTo (i + 1) (inWindow + 1)) after) ∧
      (t.Waits i inWindow → gbtSendLoop stale t.send (fuel + 1) (t.sentUpTo i inWindow) w =
        (gbtWaitForAck stale (i + 1) >>= t.resumed stale fuel (t.sentUpTo (i + 1) (inWindow + 1))) after) := by
  have before := lt_count_iff.mp inside
  have bounded := t.count_bounded
  have next : (i + 1) * t.payload = i * t.payload + t.payload := Nat.succ_mul _ _
  have offset : min (i * t.payload) t.apdu.length = i * t.payload := by omega
  have data : (t.apdu.drop (i * t.payload)).take (min (t.apdu.length - i * t.payload) t.payload) =
      (t.apdu.drop (i * t.payload)).take t.payload := by
    rw [List.take_eq_take_iff, List.length_drop]
    omega
  have last : i * t.payload + min (t.apdu.length - i * t.payload) t.payload ≥ t.apdu.length ↔
      t.apdu.length ≤ (i + 1) * t.payload := by omega
  have moved : (⟨i * t.payload + min (t.apdu.length - i * t.payload) t.payload, (i + 1 + 1) % 2 ^ 16, inWindow + 1⟩ :
      GbtPos) = t.sentUpTo (i + 1) (inWindow + 1) := by
    rw [sentUpTo, Nat.mod_eq_of_lt (by omega)]
    congr 1
    omega
  have waits : (t.window > 0 ∧ ¬t.apdu.length ≤ (i + 1) * t.payload ∧ inWindow + 1 ≥ t.window) ↔ t.Waits i inWindow := by
    rw [Waits, lt_count_iff, not_le]
  obtain ⟨after, returned, later⟩ := plain.sendBlock (block_fits inside)
    (blockRoom_mono (List.length_take_le _ _) t.payloadMax)
  have loop : gbtSendLoop stale t.send (fuel + 1) (t.sentUpTo i inWindow) w =
      (if t.Waits i inWindow then gbtWaitForAck stale (i + 1) >>= t.resumed stale fuel (t.sentUpTo (i + 1) (inWindow + 1))
        else gbtSendLoop stale t.send fuel (t.sentUpTo (i + 1) (inWindow + 1))) after := by
    have more : (t.sentUpTo i inWindow).offset < t.send.source.length := offset.trans_lt before
    rw [gbtSendLoop, if_pos more]
    simp only [send, sentUpTo, ApduSource.length, ApduSource.bytes, offset, data, last, waits]
    have number : (i + 1 + 1) % 2 ^ 16 - 1 = i + 1 := by omega
    have block : gbtSendBlock ⟨t.apdu.length ≤ (i + 1) * t.payload, t.streaming, t.window, i + 1, 0,
        (t.apdu.drop (i * t.payload)).take t.payload⟩ w = some (.ok, after) := returned
    rw [get_bind_apply, bind_of_some block, if_neg (by decide), moved, number]
    split_ifs
    · refine congrFun (congrArg (gbtWaitForAck stale (i + 1) >>= ·) (funext fun acked => ?_)) after
      cases acked with
      | error | ok => rfl
    · rfl
  refine ⟨after, later, fun free => ?_, fun held => ?_⟩
  · rw [loop, if_neg free]
  · rw [loop, if_pos held]

theorem gbtSendLoop_done (fuel : ℕ) (w : Wire) :
    gbtSendLoop stale t.send (fuel + 1) (t.sentUpTo t.count inWindow) w = some (.ok, w) := by
  have covered : t.apdu.length ≤ t.count * t.payload := count_le_iff.mp le_rfl
  have finished : ¬(t.sentUpTo t.count inWindow).offset < t.send.source.length := by
    change ¬min (t.count * t.payload) t.apdu.length < t.apdu.length
    omega
  rw [gbtSendLoop, if_neg finished]
  rfl

/-- Blocks without a wait between them. -/
theorem gbtSendLoop_burst (m : ℕ) (free : ∀ k < m, k < t.count ∧ ¬t.Waits k k) (fuel : ℕ)
    (plain : w.Plain (blockRoom t.payload) rxRoom rx (t.blocks 0)) :
    ∃ after, after.Plain (blockRoom t.payload) rxRoom rx (t.blocks m) ∧
      gbtSendLoop stale t.send (fuel + m) (t.sentUpTo 0 0) w = gbtSendLoop stale t.send fuel (t.sentUpTo m m) after := by
  induction m generalizing fuel with
  | zero => exact ⟨w, plain, rfl⟩
  | succ m ih =>
    obtain ⟨middle, sent, burst⟩ := ih (fun k less => free k (by omega)) (fuel + 1)
    obtain ⟨inside, free⟩ := free m (by omega)
    obtain ⟨after, later, next, -⟩ := gbtSendLoop_turn stale fuel m inside sent
    rw [← blocks_succ] at later
    refine ⟨after, later, ?_⟩
    rw [← next free, ← burst]
    congr 1
    omega

/-- The wait for an acknowledgement takes the next one, whichever block it is for, if it is late enough. -/
theorem wait_ack (stale : List UInt8) (expected : ℕ) (inside : i < t.count) (room : 7 ≤ rxRoom)
    (plain : w.Plain (blockRoom t.payload) rxRoom (.bytes (t.ack i).encoding :: rx) sent) :
    ∃ after, gbtWaitForAck stale expected w = some (if i + 1 < expected then .error .invalid else .ok (i + 1), after) ∧
      after.Plain (blockRoom t.payload) rxRoom rx sent := by
  obtain ⟨after, received, later⟩ := plain.recvBlock (ack_fits inside) room stale
  refine ⟨after, ?_, later⟩
  rw [gbtWaitForAck, bind_of_some received]
  dsimp only
  rw [if_neg (by simp [ack])]
  by_cases early : i + 1 < expected
  · rw [if_pos (show (t.ack i).blockNumberAck < expected from early), if_pos early]
    rfl
  · rw [if_neg (show ¬(t.ack i).blockNumberAck < expected from early), if_neg early]
    rfl

theorem wait_expired (stale : List UInt8) (expected : ℕ)
    (plain : w.Plain (blockRoom t.payload) rxRoom (.expired :: rx) sent) :
    ∃ after, gbtWaitForAck stale expected w = some (.error .timeout, after) ∧
      after.Plain (blockRoom t.payload) rxRoom rx sent := by
  obtain ⟨after, received, later⟩ := plain.recvExpired stale
  refine ⟨after, ?_, later⟩
  rw [gbtWaitForAck, bind_of_some received]
  rfl

/-- Whatever arrives, a wait ends, and a number it accepts is not too early. -/
theorem wait_any {piece : List UInt8} (stale : List UInt8) (expected : ℕ)
    (plain : w.Plain (blockRoom t.payload) rxRoom (.bytes piece :: rx) sent) :
    ∃ answer after, gbtWaitForAck stale expected w = some (answer, after) ∧
      after.Plain (blockRoom t.payload) rxRoom rx sent ∧ answer ≠ .error .ok ∧
      ∀ acked, answer = .ok acked → expected ≤ acked := by
  obtain ⟨received, after, arrived, later, failed⟩ := plain.recvAny stale
  rw [gbtWaitForAck, bind_of_some arrived]
  cases received with
  | error err => exact ⟨.error err, after, rfl, later, fun ok => failed (by cases ok; rfl), nofun⟩
  | ok ack =>
    dsimp only
    split_ifs with bad early
    · exact ⟨_, after, rfl, later, nofun, nofun⟩
    · exact ⟨_, after, rfl, later, nofun, nofun⟩
    · exact ⟨_, after, rfl, later, nofun, fun acked same => by cases same; omega⟩

/-- Acknowledgements as they are received, from one block on. -/
def ackEvents (t : BlockTransfer) (i k : ℕ) : List RxEvent := (List.range' i k).map fun j => .bytes (t.ack j).encoding

/-- Block by block with a window of one. -/
theorem gbtSendLoop_paced (single : t.window = 1) (room : 7 ≤ rxRoom) (k : ℕ) (inside : i + k < t.count) (fuel : ℕ)
    (plain : w.Plain (blockRoom t.payload) rxRoom (t.ackEvents i k ++ rx) (t.blocks i)) :
    ∃ after, after.Plain (blockRoom t.payload) rxRoom rx (t.blocks (i + k)) ∧
      gbtSendLoop stale t.send (fuel + k) (t.sentUpTo i 0) w =
        gbtSendLoop stale t.send fuel (t.sentUpTo (i + k) 0) after := by
  induction k generalizing i w with
  | zero => exact ⟨w, plain, rfl⟩
  | succ k ih =>
    have held : t.Waits i 0 := ⟨by omega, by omega, by omega⟩
    obtain ⟨middle, sent, -, turn⟩ := gbtSendLoop_turn stale (fuel + k) 0 (show i < t.count by omega) plain
    rw [← blocks_succ] at sent
    have next : middle.Plain (blockRoom t.payload) rxRoom (.bytes (t.ack i).encoding :: (t.ackEvents (i + 1) k ++ rx))
        (t.blocks (i + 1)) := sent
    obtain ⟨after, acked, later⟩ := wait_ack stale (i + 1) (by omega) room next
    obtain ⟨final, done, rest⟩ := ih (by omega) later
    have onward : gbtResume t.send (t.sentUpTo (i + 1) (0 + 1)) (i + 1) = t.sentUpTo (i + 1) 0 :=
      if_neg (lt_irrefl _)
    refine ⟨final, ?_, ?_⟩
    · rwa [Nat.add_right_comm] at done
    · rw [← Nat.add_assoc, turn held, bind_of_some acked, if_neg (lt_irrefl _), resumed, onward, rest]
      congr 2
      omega

/-- The sender returned; the first blocks have left, in order and each once, and all of them exactly if it succeeded. -/
def SendsOnce (t : BlockTransfer) (outcome : Option (Err × Wire)) : Prop :=
  ∃ n ≤ t.count, ∃ result after, outcome = some (result, after) ∧ after.world.sent = t.blocks n ∧
    (result = .ok ↔ n = t.count)

/-- An acknowledgement that is accepted covers the window, so it does not take the transfer back. -/
theorem gbtSendLoop_any {heard : List (List UInt8)} (within : i ≤ t.count) (enough : t.count < fuel + i)
    (plain : w.Plain (blockRoom t.payload) rxRoom (heard.map .bytes ++ [.expired]) (t.blocks i)) :
    t.SendsOnce (gbtSendLoop stale t.send fuel (t.sentUpTo i inWindow) w) := by
  induction fuel generalizing i inWindow w heard with
  | zero => omega
  | succ fuel ih =>
    obtain rfl | inside := within.eq_or_lt
    · exact ⟨_, le_rfl, .ok, w, gbtSendLoop_done fuel w, plain.sent, iff_of_true rfl rfl⟩
    obtain ⟨middle, left, onward, wait⟩ := gbtSendLoop_turn stale fuel inWindow inside plain
    rw [← blocks_succ] at left
    by_cases held : t.Waits i inWindow
    · rw [wait held]
      cases heard with
      | nil =>
        obtain ⟨after, expired, later⟩ := wait_expired stale (i + 1) left
        rw [bind_of_some expired]
        exact ⟨i + 1, inside, .timeout, after, rfl, later.sent, iff_of_false nofun held.2.1.ne⟩
      | cons piece heard =>
        obtain ⟨answer, after, returned, later, failed, late⟩ := wait_any stale (i + 1) left
        rw [bind_of_some returned]
        cases answer with
        | error err =>
          have bad : err ≠ .ok := fun ok => failed (congrArg _ ok)
          exact ⟨i + 1, inside, err, after, rfl, later.sent, iff_of_false bad held.2.1.ne⟩
        | ok acked =>
          have covered := late acked rfl
          have resume : gbtResume t.send (t.sentUpTo (i + 1) (inWindow + 1)) acked = t.sentUpTo (i + 1) 0 :=
            if_neg (show ¬acked + 1 < i + 1 + 1 by omega)
          rw [resumed, resume]
          exact ih inside (by omega) later
    · rw [onward held]
      exact ih inside (by omega) left

end Sender

/-! ## The receiver -/

def receivedUpTo (t : BlockTransfer) (i : ℕ) : GbtRecv :=
  ⟨t.apdu.take (i * t.payload), i + 1, if i = 0 then 0 else t.window⟩

def blockEvents (t : BlockTransfer) (i k : ℕ) : List RxEvent := (List.range' i k).map fun j => .bytes (t.block j).encoding

section Receiver

variable {stale : List UInt8} {w : Wire} {txRoom fuel size : ℕ} {rx : List RxEvent} {sent : List (List UInt8)}

theorem receivedUpTo_succ (inside : i < t.count) : (t.receivedUpTo i).append (t.block i) = t.receivedUpTo (i + 1) := by
  have bounded := t.count_bounded
  have number : (i + 1 + 1) % 2 ^ 16 = i + 1 + 1 := Nat.mod_eq_of_lt (by omega)
  have window : (if t.window > 0 then t.window else if i = 0 then 0 else t.window) = t.window := by
    split_ifs
    · rfl
    · omega
    · rfl
  have taken : t.apdu.take (i * t.payload) ++ (t.apdu.drop (i * t.payload)).take t.payload =
      t.apdu.take ((i + 1) * t.payload) := by
    rw [Nat.succ_mul, List.take_add]
  change GbtRecv.mk (t.apdu.take (i * t.payload) ++ (t.apdu.drop (i * t.payload)).take t.payload)
    ((i + 1 + 1) % 2 ^ 16) (if t.window > 0 then t.window else if i = 0 then 0 else t.window) =
      ⟨t.apdu.take ((i + 1) * t.payload), i + 1 + 1, t.window⟩
  rw [taken, number, window]

/-- One block at the receiver: the last one ends the transfer, any other one is acknowledged. -/
theorem gbtRecvStep_block (inside : i < t.count) (room : 7 ≤ txRoom) (large : t.apdu.length ≤ size)
    (plain : w.Plain txRoom (blockRoom t.payload) rx (t.acks i)) :
    (i + 1 = t.count → gbtRecvStep size (t.receivedUpTo i) (t.block i) w = some (.inl (.ok t.apdu), w)) ∧
      (i + 1 < t.count → ∃ after, gbtRecvStep size (t.receivedUpTo i) (t.block i) w =
          some (.inr (t.receivedUpTo (i + 1)), after) ∧
        after.Plain txRoom (blockRoom t.payload) rx (t.acks (i + 1))) := by
  have fits : ¬(t.receivedUpTo (i + 1)).acc.length > size := by
    have := List.length_take_le' ((i + 1) * t.payload) t.apdu
    change ¬(t.apdu.take _).length > size
    omega
  have number : ¬(t.block i).blockNumber > (t.receivedUpTo i).expected := lt_irrefl (i + 1)
  have number' : ¬(t.block i).blockNumber < (t.receivedUpTo i).expected := lt_irrefl (i + 1)
  rw [gbtRecvStep, if_neg number, if_neg number', receivedUpTo_succ inside]
  rw [if_neg fits]
  constructor
  · intro last
    have covered : t.apdu.length ≤ (i + 1) * t.payload := by rw [last]; exact count_le_iff.mp le_rfl
    have flagged : (t.block i).lastBlock = true := decide_eq_true covered
    rw [if_pos flagged, receivedUpTo, List.take_of_length_le covered]
    rfl
  · intro more
    have flagged : ¬(t.block i).lastBlock = true := by
      have := lt_count_iff.mp more
      change ¬decide (t.apdu.length ≤ (i + 1) * t.payload) = true
      rw [decide_eq_true_iff]
      omega
    rw [if_neg flagged]
    have window : (t.receivedUpTo (i + 1)).peerWindow = t.window := rfl
    rw [window]
    by_cases unconfirmed : t.window = 0
    · refine ⟨w, ?_, ?_⟩
      · rw [if_neg (by omega)]
        rfl
      · rwa [acks_of_unconfirmed unconfirmed] at plain ⊢
    · obtain ⟨after, returned, later⟩ := plain.sendBlock (ack_fits inside) room
      rw [← acks_succ unconfirmed] at later
      refine ⟨after, ?_, later⟩
      have sent : gbtSendAck t.window (t.receivedUpTo i).expected w = some (.ok, after) := returned
      rw [if_pos (by omega), gbtAckThen, bind_of_some sent]
      rfl

/-- The receiver behind some blocks that are not the last one. -/
theorem gbtRecvLoop_run (stale : List UInt8) (fuel : ℕ) (room : 7 ≤ txRoom) (large : t.apdu.length ≤ size) (k : ℕ)
    (inside : i + k < t.count) (plain : w.Plain txRoom (blockRoom t.payload) (t.blockEvents i k ++ rx) (t.acks i)) :
    ∃ after, after.Plain txRoom (blockRoom t.payload) rx (t.acks (i + k)) ∧
      gbtRecvLoop stale size (fuel + k) (t.receivedUpTo i) w =
        gbtRecvLoop stale size fuel (t.receivedUpTo (i + k)) after := by
  induction k generalizing i w with
  | zero => exact ⟨w, plain, rfl⟩
  | succ k ih =>
    have next : w.Plain txRoom (blockRoom t.payload)
        (.bytes (t.block i).encoding :: (t.blockEvents (i + 1) k ++ rx)) (t.acks i) := plain
    obtain ⟨middle, received, later⟩ := next.recvBlock (block_fits (show i < t.count by omega))
      (blockRoom_mono (List.length_take_le _ _) t.payloadMax) stale
    obtain ⟨after, stepped, acked⟩ := (gbtRecvStep_block (by omega) room large later).2 (by omega)
    obtain ⟨final, done, rest⟩ := ih (by omega) acked
    refine ⟨final, ?_, ?_⟩
    · rwa [Nat.add_right_comm] at done
    · rw [← Nat.add_assoc, gbtRecvLoop, bind_of_some received]
      dsimp only
      rw [bind_of_some stepped]
      dsimp only
      rw [rest]
      congr 2
      omega

end Receiver

end BlockTransfer

/-! ## The two parties -/

/-- A link that hears some frames and nothing behind them. -/
def Wire.hearing (w : Wire) (inbox : List (List UInt8)) : Wire :=
  w.setWorld { w.world with rx := inbox.map .bytes ++ [.expired], sent := [] }

/-- A link without framing whose transport takes every frame, with buffers of at least these sizes. -/
def Wire.Unframed (w : Wire) (txRoom rxRoom : ℕ) : Prop := w.Plain txRoom rxRoom w.world.rx w.world.sent

theorem Wire.Unframed.hearing {w : Wire} {txRoom rxRoom : ℕ} (unframed : w.Unframed txRoom rxRoom)
    (inbox : List (List UInt8)) : (w.hearing inbox).Plain txRoom rxRoom (inbox.map .bytes ++ [.expired]) [] :=
  { unframed with rx := rfl, sent := rfl }

namespace BlockTransfer

/-- `osp_gbt_transport_send` on a link. -/
def sender (t : BlockTransfer) (stale : List UInt8) (w : Wire) : Party Wire (List UInt8) Err :=
  ⟨gbtTransportSend stale t.send, w.hearing, fun after => after.world.sent⟩

/-- `osp_gbt_transport_recv` on a link. -/
def receiver (size : ℕ) (stale : List UInt8) (w : Wire) : Party Wire (List UInt8) (Except Err (List UInt8)) :=
  ⟨gbtTransportRecvAll stale size, w.hearing, fun after => after.world.sent⟩

variable {t : BlockTransfer} {stale : List UInt8} {w : Wire} {rxRoom txRoom size k : ℕ}

theorem acks_bytes (confirmed : t.window ≠ 0) (k : ℕ) : (t.acks k).map .bytes = t.ackEvents 0 k := by
  rw [acks, if_neg confirmed, List.map_map, ackEvents, ← List.range_eq_range']
  rfl

theorem blocks_bytes (t : BlockTransfer) (k : ℕ) : (t.blocks k).map .bytes = t.blockEvents 0 k := by
  rw [blocks, List.map_map, blockEvents, ← List.range_eq_range']
  rfl

def sendFuel (t : BlockTransfer) (inbox : List (List UInt8)) : ℕ := (inbox.length + 1 + 1) * (t.apdu.length + 1) + 1

theorem count_lt_sendFuel (t : BlockTransfer) (inbox : List (List UInt8)) : t.count + inbox.length + 1 < t.sendFuel inbox := by
  have covered : t.count ≤ t.apdu.length := by
    rw [count_le_iff]
    exact Nat.le_mul_of_pos_right _ t.payloadPos
  have product : (inbox.length + 1) * t.apdu.length ≥ inbox.length + 1 :=
    Nat.le_mul_of_pos_right _ (List.length_pos_iff.mpr t.nonempty)
  rw [sendFuel]
  nlinarith

theorem sender_outcome (t : BlockTransfer) (stale : List UInt8) (w : Wire) (inbox : List (List UInt8)) :
    (t.sender stale w).outcome inbox =
      gbtSendLoop stale t.send (t.sendFuel inbox) (t.sentUpTo 0 0) (w.hearing inbox) := by
  have some := List.length_pos_iff.mpr t.nonempty
  have bounded := t.bounded
  have positive := t.payloadPos
  have small := t.payloadMax
  have window : { t.send with window := t.send.window % 64 } = t.send := by
    have := t.windowMax
    change GbtSend.mk _ _ (t.window % 64) _ = ⟨_, _, t.window, _⟩
    rw [Nat.mod_eq_of_lt (by omega)]
    rfl
  have start : ({} : GbtPos) = t.sentUpTo 0 0 := by simp [sentUpTo]
  have accepted : ¬(t.send.source.length = 0 ∨ t.send.source.length > 4096 ∨ t.send.payloadMax = 0 ∨
      t.send.payloadMax > 256) := by
    change ¬(t.apdu.length = 0 ∨ t.apdu.length > 4096 ∨ t.payload = 0 ∨ t.payload > 256)
    omega
  have heard : (w.hearing inbox).world.rx.length = inbox.length + 1 := by
    change (inbox.map RxEvent.bytes ++ [RxEvent.expired]).length = _
    simp
  change gbtTransportSend stale t.send (w.hearing inbox) = _
  rw [gbtTransportSend, if_neg accepted, get_bind_apply, window, start, heard]
  rfl

/-- A sender that never waits returns whatever it hears. -/
theorem sender_free (stale : List UInt8) (unframed : w.Unframed (blockRoom t.payload) rxRoom)
    (free : t.window = 0 ∨ t.count ≤ t.window) (inbox : List (List UInt8)) :
    ∃ after, (t.sender stale w).outcome inbox = some (.ok, after) ∧ after.world.sent = t.blocks t.count := by
  have enough := t.count_lt_sendFuel inbox
  have never (k : ℕ) (_ : k < t.count) : ¬t.Waits k k := by
    rw [Waits]
    omega
  obtain ⟨left, fuel⟩ : ∃ left, t.sendFuel inbox = left + 1 + t.count := ⟨t.sendFuel inbox - t.count - 1, by omega⟩
  obtain ⟨after, later, burst⟩ :=
    gbtSendLoop_burst t.count (fun k less => ⟨less, never k less⟩) (left + 1) (unframed.hearing inbox)
  rw [← fuel] at burst
  exact ⟨after, (t.sender_outcome stale w inbox).trans (burst.trans (gbtSendLoop_done left after)), later.sent⟩

/-- With a window of one the sender gets one block further than it heard. -/
theorem sender_paced (stale : List UInt8) (unframed : w.Unframed (blockRoom t.payload) rxRoom) (room : 7 ≤ rxRoom)
    (single : t.window = 1) (inside : k < t.count) :
    ∃ after, (t.sender stale w).outcome (t.acks k) = some (if k + 1 = t.count then .ok else .timeout, after) ∧
      after.world.sent = t.blocks (k + 1) := by
  have confirmed : t.window ≠ 0 := by omega
  have length : (t.acks k).length = k := by simp [acks, confirmed]
  have enough := t.count_lt_sendFuel (t.acks k)
  obtain ⟨fuel, split⟩ : ∃ fuel, t.sendFuel (t.acks k) = fuel + 1 + 1 + k := ⟨t.sendFuel (t.acks k) - k - 2, by omega⟩
  have plain := unframed.hearing (t.acks k)
  rw [acks_bytes confirmed] at plain
  obtain ⟨middle, sent, run⟩ := gbtSendLoop_paced single room k (show 0 + k < t.count by omega) (fuel + 1 + 1) plain
  rw [Nat.zero_add] at sent run
  obtain ⟨after, later, onward, wait⟩ := gbtSendLoop_turn stale (fuel + 1) 0 inside sent
  rw [← blocks_succ] at later
  rw [sender_outcome, split, run]
  by_cases last : k + 1 = t.count
  · have free : ¬t.Waits k 0 := by
      rw [Waits]
      omega
    rw [onward free, last, gbtSendLoop_done, if_pos rfl]
    exact ⟨after, rfl, last ▸ later.sent⟩
  · have held : t.Waits k 0 := ⟨by omega, by omega, by omega⟩
    obtain ⟨final, expired, done⟩ := wait_expired stale (k + 1) later
    rw [wait held, bind_of_some expired, if_neg last]
    exact ⟨final, rfl, done.sent⟩

/-- With a larger window the sender stops behind the first window, at the first acknowledgement. -/
theorem sender_stuck (stale : List UInt8) (unframed : w.Unframed (blockRoom t.payload) rxRoom) (room : 7 ≤ rxRoom)
    (wide : 2 ≤ t.window) (more : t.window < t.count) (k : ℕ) :
    ∃ after, (t.sender stale w).outcome (t.acks k) = some (if k = 0 then .timeout else .invalid, after) ∧
      after.world.sent = t.blocks t.window := by
  have confirmed : t.window ≠ 0 := by omega
  have enough := t.count_lt_sendFuel (t.acks k)
  obtain ⟨before, behind⟩ : ∃ before, t.window = before + 1 := ⟨t.window - 1, by omega⟩
  obtain ⟨fuel, split⟩ : ∃ fuel, t.sendFuel (t.acks k) = fuel + 1 + before :=
    ⟨t.sendFuel (t.acks k) - before - 1, by omega⟩
  have free (j : ℕ) (early : j < before) : j < t.count ∧ ¬t.Waits j j := by
    rw [Waits]
    omega
  have held : t.Waits before before := ⟨by omega, by omega, by omega⟩
  obtain ⟨middle, sent, run⟩ := gbtSendLoop_burst before free (fuel + 1) (unframed.hearing (t.acks k))
  obtain ⟨after, later, -, wait⟩ := gbtSendLoop_turn stale fuel before (show before < t.count by omega) sent
  rw [← blocks_succ, ← behind] at later
  rw [sender_outcome, split, run, wait held]
  rw [acks_bytes confirmed] at later
  cases k with
  | zero =>
    obtain ⟨final, expired, done⟩ := wait_expired stale (before + 1) later
    rw [bind_of_some expired, if_pos rfl]
    exact ⟨final, rfl, done.sent⟩
  | succ k =>
    have first : after.Plain (blockRoom t.payload) rxRoom
        (.bytes (t.ack 0).encoding :: (t.ackEvents 1 k ++ [.expired])) (t.blocks t.window) := later
    obtain ⟨final, acked, done⟩ := wait_ack stale (before + 1) t.count_pos room first
    rw [bind_of_some acked, if_pos (by omega), if_neg (Nat.succ_ne_zero k)]
    exact ⟨final, rfl, done.sent⟩

theorem receiver_outcome (size : ℕ) (stale : List UInt8) (w : Wire) (n : ℕ) :
    (receiver size stale w).outcome (t.blocks n) =
      gbtRecvLoop stale size (2 + n) (t.receivedUpTo 0) (w.hearing (t.blocks n)) := by
  have heard : (w.hearing (t.blocks n)).world.rx.length + 1 = 2 + n := by
    change ((t.blocks n).map RxEvent.bytes ++ [RxEvent.expired]).length + 1 = _
    simp [blocks]
    omega
  have start : ({} : GbtRecv) = t.receivedUpTo 0 := by simp [receivedUpTo]
  change gbtTransportRecvAll stale size (w.hearing (t.blocks n)) = _
  rw [gbtTransportRecvAll, get_bind_apply, heard, start]

/-- The receiver of all blocks has the APDU, and has acknowledged every block but the last one. -/
theorem receiver_done (stale : List UInt8) (unframed : w.Unframed txRoom (blockRoom t.payload))
    (room : 7 ≤ txRoom) (large : t.apdu.length ≤ size) :
    ∃ after, (receiver size stale w).outcome (t.blocks t.count) = some (.ok t.apdu, after) ∧
      after.world.sent = t.acks (t.count - 1) := by
  obtain ⟨last, behind⟩ : ∃ last, t.count = last + 1 := ⟨t.count - 1, by have := t.count_pos; omega⟩
  have plain := unframed.hearing (t.blocks t.count)
  rw [blocks_bytes, ← show t.acks 0 = [] by simp [acks]] at plain
  have split : t.blockEvents 0 t.count = t.blockEvents 0 last ++ [.bytes (t.block last).encoding] := by
    rw [behind, blockEvents, List.range'_concat]
    simp [blockEvents]
  rw [split, List.append_assoc] at plain
  obtain ⟨middle, sent, run⟩ := gbtRecvLoop_run stale 3 room large last (by omega) plain
  rw [Nat.zero_add] at sent run
  have inside : last < t.count := by omega
  obtain ⟨after, received, done⟩ := sent.recvBlock (block_fits inside)
    (blockRoom_mono (List.length_take_le _ _) t.payloadMax) stale
  have finished := (gbtRecvStep_block inside room large done).1 behind.symm
  refine ⟨after, ?_, ?_⟩
  · rw [receiver_outcome, show 2 + t.count = 3 + last by omega, run, gbtRecvLoop, bind_of_some received]
    dsimp only
    rw [bind_of_some finished]
    rfl
  · rw [done.sent]
    congr 1
    omega

theorem receiver_outbox (unframed : w.Unframed txRoom (blockRoom t.payload)) (room : 7 ≤ txRoom)
    (large : t.apdu.length ≤ size) (part : k ≤ t.count) :
    (receiver size stale w).outbox (t.blocks k) = t.acks (min k (t.count - 1)) := by
  rcases part.lt_or_eq with part | rfl
  · -- behind a part of the blocks the receiver waits for the next one
    have plain := unframed.hearing (t.blocks k)
    rw [blocks_bytes, ← show t.acks 0 = [] by simp [acks]] at plain
    obtain ⟨middle, sent, run⟩ := gbtRecvLoop_run stale 2 room large k (by omega) plain
    rw [Nat.zero_add] at sent run
    obtain ⟨after, received, done⟩ := sent.recvExpired stale
    have waits := (receiver_outcome size stale w k).trans run
    rw [gbtRecvLoop, bind_of_some received] at waits
    rw [Party.outbox_of_outcome waits, show min k (t.count - 1) = k by omega]
    exact done.sent
  · obtain ⟨after, done, said⟩ := receiver_done stale unframed room large
    rw [Party.outbox_of_outcome done, show min t.count (t.count - 1) = t.count - 1 by omega]
    exact said

/-! ## The transfer -/

section Conversation

variable {sender receiver : Wire} {sendRoom recvRoom : ℕ} {heard : List UInt8}

/-- The links of both parties, with buffers for a block in one direction and for an acknowledgement in the other. -/
structure Linked (t : BlockTransfer) (sender receiver : Wire) : Prop where
  sender : sender.Unframed (blockRoom t.payload) 7
  receiver : receiver.Unframed 7 (blockRoom t.payload)

/-- Both parties return success at the end of the conversation, the receiver with these bytes. -/
def Delivers (t : BlockTransfer) (size : ℕ) (stale heard : List UInt8) (sender receiver : Wire) (apdu : List UInt8) : Prop :=
  ∃ acks blocks sender' receiver', Settled (t.sender stale sender) (BlockTransfer.receiver size heard receiver) acks blocks ∧
    (t.sender stale sender).outcome acks = some (.ok, sender') ∧
    (BlockTransfer.receiver size heard receiver).outcome blocks = some (.ok apdu, receiver')

theorem delivers_free (linked : t.Linked sender receiver) (large : t.apdu.length ≤ size)
    (free : t.window = 0 ∨ t.count ≤ t.window) : t.Delivers size stale heard sender receiver t.apdu := by
  have speaks (inbox : List (List UInt8)) : (t.sender stale sender).outbox inbox = t.blocks t.count := by
    obtain ⟨after, returned, sent⟩ := sender_free stale linked.sender free inbox
    rw [Party.outbox_of_outcome returned]
    exact sent
  obtain ⟨sender', sent, -⟩ := sender_free stale linked.sender free (t.acks (t.count - 1))
  obtain ⟨receiver', received, said⟩ := receiver_done heard linked.receiver le_rfl large
  have answers := (Party.outbox_of_outcome received).trans said
  refine ⟨_, _, sender', receiver', .of_fixed 1 ?_ (speaks _) answers, sent, received⟩
  rw [conversation, speaks, answers]

theorem conversation_paced (linked : t.Linked sender receiver) (large : t.apdu.length ≤ size) (single : t.window = 1)
    (n : ℕ) : conversation (t.sender stale sender) (BlockTransfer.receiver size heard receiver) n =
      (t.acks (min n (t.count - 1)), t.blocks (min n t.count)) := by
  have positive := t.count_pos
  induction n with
  | zero => simp [conversation, acks, blocks]
  | succ n ih =>
    obtain ⟨after, returned, sent⟩ := sender_paced stale linked.sender le_rfl single
      (show min n (t.count - 1) < t.count by omega)
    have said := (Party.outbox_of_outcome returned).trans sent
    rw [show min n (t.count - 1) + 1 = min (n + 1) t.count by omega] at said
    rw [conversation, ih]
    dsimp only
    rw [said, receiver_outbox linked.receiver le_rfl large (by omega),
      show min (min (n + 1) t.count) (t.count - 1) = min (n + 1) (t.count - 1) by omega]

theorem delivers_paced (linked : t.Linked sender receiver) (large : t.apdu.length ≤ size) (single : t.window = 1) :
    t.Delivers size stale heard sender receiver t.apdu := by
  have positive := t.count_pos
  have settled : Settled (t.sender stale sender) (BlockTransfer.receiver size heard receiver) (t.acks (t.count - 1))
      (t.blocks t.count) := by
    refine ⟨t.count, fun m late => ?_⟩
    rw [conversation_paced linked large single, show min m (t.count - 1) = t.count - 1 by omega,
      show min m t.count = t.count by omega]
  obtain ⟨sender', sent, -⟩ := sender_paced stale linked.sender le_rfl single (show t.count - 1 < t.count by omega)
  rw [if_pos (by omega)] at sent
  obtain ⟨receiver', received, -⟩ := receiver_done heard linked.receiver le_rfl large
  exact ⟨_, _, sender', receiver', settled, sent, received⟩

/-- A window of several blocks that does not hold the whole transfer ends in an error. -/
theorem settled_stuck (linked : t.Linked sender receiver) (large : t.apdu.length ≤ size) (wide : 2 ≤ t.window)
    (more : t.window < t.count) :
    Settled (t.sender stale sender) (BlockTransfer.receiver size heard receiver) (t.acks t.window) (t.blocks t.window) := by
  have speaks (k : ℕ) : (t.sender stale sender).outbox (t.acks k) = t.blocks t.window := by
    obtain ⟨after, returned, sent⟩ := sender_stuck stale linked.sender le_rfl wide more k
    rw [Party.outbox_of_outcome returned]
    exact sent
  have answers : (BlockTransfer.receiver size heard receiver).outbox (t.blocks t.window) = t.acks t.window := by
    rw [receiver_outbox linked.receiver le_rfl large more.le, show min t.window (t.count - 1) = t.window by omega]
  refine .of_fixed 1 ?_ (speaks _) answers
  have silent : t.acks 0 = [] := by simp [acks]
  rw [conversation, conversation]
  dsimp only
  rw [← silent, speaks, answers]

/-- A transfer of any APDU, in blocks of any size and with any window, over lossless channels without framing: it is
delivered exactly if the window is at most one block or holds the whole transfer. -/
theorem block_transfer_delivers_iff (t : BlockTransfer) (size : ℕ) (stale heard : List UInt8) (sender receiver : Wire)
    (linked : t.Linked sender receiver) (large : t.apdu.length ≤ size) :
    t.Delivers size stale heard sender receiver t.apdu ↔ t.window ≤ 1 ∨ t.apdu.length ≤ t.window * t.payload := by
  constructor
  · rintro ⟨acks, blocks, sender', receiver', settled, sent, -⟩
    rw [← count_le_iff]
    by_contra stuck
    push Not at stuck
    obtain ⟨rfl, rfl⟩ := settled.unique (settled_stuck linked large stuck.1 stuck.2)
    obtain ⟨after, returned, -⟩ := sender_stuck stale linked.sender le_rfl stuck.1 stuck.2 t.window
    rw [returned, if_neg (by omega)] at sent
    cases sent
  · rintro (short | covered)
    · rcases Nat.le_one_iff_eq_zero_or_eq_one.mp short with none | single
      · exact delivers_free linked large (.inl none)
      · exact delivers_paced linked large single
    · exact delivers_free linked large (.inr (count_le_iff.mpr covered))

/-- A link without framing and with buffers of sixteen bytes. -/
def unframedLink : Wire :=
  { framing := .none
    wrapperSource := 0
    wrapperDest := 0
    hdlc := hdlcSessionInitClient 1 16
    world := { rx := [] }
    txBuf := List.replicate 16 0
    rxBuf := List.replicate 16 0 }

def threeBlocks (window : ℕ) (windowMax : window ≤ 63) : BlockTransfer :=
  ⟨[1, 2, 3], 1, window, false, by decide, by decide, by decide, by decide, windowMax⟩

theorem block_transfer_delivers_iff_three :
    (threeBlocks 1 (by decide)).Delivers 3 [] [] unframedLink unframedLink [1, 2, 3] := by
  have unframed (txRoom rxRoom : ℕ) (tx : txRoom ≤ 16) (rx : rxRoom ≤ 16) : unframedLink.Unframed txRoom rxRoom :=
    ⟨rfl, by simp [unframedLink], tx, rx, rfl, rfl⟩
  have linked : (threeBlocks 1 (by decide)).Linked unframedLink unframedLink :=
    ⟨unframed _ _ (by decide) (by decide), unframed _ _ (by decide) (by decide)⟩
  exact (block_transfer_delivers_iff _ _ [] [] _ _ linked (by decide)).mpr (.inl le_rfl)

/-- With a window of two the sender sends two blocks, the receiver acknowledges both, and the sender takes the
acknowledgement of the first block for an error. -/
theorem window_of_two_refused :
    ∃ acks blocks, Settled ((threeBlocks 2 (by decide)).sender [] unframedLink) (BlockTransfer.receiver 3 [] unframedLink)
        acks blocks ∧ (((threeBlocks 2 (by decide)).sender [] unframedLink).outcome acks).map Prod.fst = some .invalid ∧
      ((BlockTransfer.receiver 3 [] unframedLink).outcome blocks).map Prod.fst = some (.error .timeout) :=
  ⟨(threeBlocks 2 (by decide)).acks 2, (threeBlocks 2 (by decide)).blocks 2,
    .of_fixed 1 (by decide +kernel) (by decide +kernel) (by decide +kernel), by decide +kernel, by decide +kernel⟩

end Conversation

/-- Whatever it hears, a sender returns and has sent no block twice: no acknowledgement takes the transfer back. -/
theorem sender_sends_once (t : BlockTransfer) (stale : List UInt8) (w : Wire) (rxRoom : ℕ) (inbox : List (List UInt8))
    (unframed : w.Unframed (blockRoom t.payload) rxRoom) : t.SendsOnce ((t.sender stale w).outcome inbox) := by
  have enough := t.count_lt_sendFuel inbox
  rw [sender_outcome]
  exact gbtSendLoop_any t.count.zero_le (by omega) (unframed.hearing inbox)

/-- The acknowledgement of the first block, where the window is two. -/
theorem sender_sends_once_three : (threeBlocks 2 (by decide)).SendsOnce
    (((threeBlocks 2 (by decide)).sender [] unframedLink).outcome [[0xE0, 0x82, 0, 1, 0, 1, 0]]) :=
  sender_sends_once _ [] unframedLink 7 _ ⟨rfl, by simp [unframedLink], by decide, by decide, rfl, rfl⟩

end BlockTransfer

end OpenSpodes
