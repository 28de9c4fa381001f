import OpenSpodes.Model.Acse

/-! # Initiate requests and responses

The user information of an association request proposes a DLMS version, a conformance block and a
PDU size, and may carry a dedicated key; the response states what was negotiated.
-/

namespace OpenSpodes

open Bytes Machine.Fallible

/-- `osp_initiate_request_t`. -/
structure InitiateRequest where
  dedicatedKey : Option (BytesUpTo 32) := none
  responseAllowed : Bool := false
  proposedQualityOfService : Option Int8 := none
  proposedDlmsVersion : UInt8 := 0
  proposedConformance : ℕ := 0
  clientMaxReceivePduSize : ℕ := 0
  deriving DecidableEq

/-- `osp_initiate_response_t`. -/
structure InitiateResponse where
  negotiatedQualityOfService : Option Int8 := none
  negotiatedDlmsVersion : UInt8
  negotiatedConformance : ℕ
  serverMaxReceivePduSize : ℕ
  vaaName : ℕ
  deriving DecidableEq

/-- `take_conformance`: any number of octets, the first of them counting unused bits. -/
def takeConformance : Read ℕ := do
  needUnread 3 .invalid
  let b ← get
  failIf (b.byteAt b.rd ≠ 0x5F ∨ b.byteAt (b.rd + 1) ≠ 0x1F) .invalid
  modify (·.skip 2)
  let len ← axdrReadU8
  failIf (len < 1 ∨ (← get).unread < len.toNat) .invalid
  modify (·.skip 1)
  return beNat (← takeBytes (len.toNat - 1)) % 2 ^ 32

/-- An optional byte behind a presence flag. -/
def takeFlagged : Read (Option UInt8) := do
  let flag ← axdrReadU8
  failIf (flag > 1) .invalid
  if flag = 0 then return none else return some (← axdrReadU8)

/-- The optional dedicated key. -/
def takeDedicatedKey : Read (Option (BytesUpTo 32)) := do
  let flag ← axdrReadU8
  failIf (flag > 1) .invalid
  if flag = 0 then return none
  else
    let len ← axdrReadU8
    failIf (len > 32 ∨ (← get).unread < len.toNat) .invalid
    return some (BytesUpTo.ofList 32 (← takeBytes len.toNat))

/-- `osp_initiate_request_decode`. -/
def initiateRequestDecode : Read InitiateRequest := do
  let tag ← axdrReadU8
  failIf (tag ≠ 0x01) .invalid
  let key ← takeDedicatedKey
  let allowed ← takeFlagged
  let quality ← takeFlagged
  let version ← axdrReadU8
  let conformance ← takeConformance
  let pduSize ← axdrReadU16
  return ⟨key, (allowed.map (· != 0)).getD true, quality.map (·.toInt8), version, conformance, pduSize⟩

/-- `push_conformance`. -/
def pushConformance (conformance : ℕ) : Write Unit :=
  writeBytes ([0x5F, 0x1F, 0x04, 0x00] ++ beBytes 3 conformance) .invalid

/-- An optional field: a presence flag, then its bytes. -/
def pushFlagged (field : Option (List UInt8)) : Write Unit := writeBytes ((field.map (1 :: ·)).getD [0]) .invalid

/-- `osp_initiate_request_encode`. -/
def initiateRequestEncode (req : InitiateRequest) : Write Unit := do
  axdrWriteU8 0x01
  pushFlagged (req.dedicatedKey.map fun key => UInt8.ofNat key.val.length :: key.val)
  pushFlagged (if req.responseAllowed then none else some [0])
  pushFlagged (req.proposedQualityOfService.map ([·.toUInt8]))
  axdrWriteU8 req.proposedDlmsVersion
  pushConformance req.proposedConformance
  axdrWriteU16 req.clientMaxReceivePduSize

/-- `osp_initiate_response_default`. -/
def initiateResponseDefault : InitiateResponse := ⟨none, 6, 0x007E1F, 0x0800, 0x0007⟩

/-- `osp_initiate_response_encode`. -/
def initiateResponseEncode (resp : InitiateResponse) : Write Unit := do
  axdrWriteU8 0x08
  pushFlagged (resp.negotiatedQualityOfService.map ([·.toUInt8]))
  axdrWriteU8 resp.negotiatedDlmsVersion
  pushConformance resp.negotiatedConformance
  axdrWriteU16 resp.serverMaxReceivePduSize
  axdrWriteU16 resp.vaaName

/-- `osp_initiate_response_decode`. -/
def initiateResponseDecode : Read InitiateResponse := do
  let tag ← axdrReadU8
  failIf (tag ≠ 0x08) .invalid
  let quality ← takeFlagged
  let version ← axdrReadU8
  let conformance ← takeConformance
  let pduSize ← axdrReadU16
  let vaaName ← axdrReadU16
  return ⟨quality.map (·.toInt8), version, conformance, pduSize, vaaName⟩

/-- `osp_initiate_error_encode`. -/
def initiateErrorEncode (value : UInt8) : Write Unit := confirmedServiceErrorEncode 1 6 value

end OpenSpodes
