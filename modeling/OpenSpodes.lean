import OpenSpodes.Soundness.MessageProtection
import OpenSpodes.Soundness.HlsHandshake
import OpenSpodes.Soundness.HlsReflection
import OpenSpodes.Soundness.AuthenticationGate
import OpenSpodes.Soundness.ServerReplay
import OpenSpodes.Soundness.ResponseProtection
import OpenSpodes.Soundness.NonceUniqueness
import OpenSpodes.Soundness.DispatchedBytes
import OpenSpodes.Soundness.GeneralFailure
import OpenSpodes.Soundness.HeaderBinding
import OpenSpodes.Soundness.GeneralRoundTrip
import OpenSpodes.Soundness.AccessControl
import OpenSpodes.Soundness.AssociationIsolation
import OpenSpodes.Soundness.BlockAssembly
import OpenSpodes.Soundness.LongGet
import OpenSpodes.Soundness.StackResidue
import OpenSpodes.Soundness.ThreadIsolation
import OpenSpodes.Soundness.ForeignFrames
import OpenSpodes.Soundness.FrameCodec
import OpenSpodes.Soundness.XidAgreement
import OpenSpodes.Soundness.SegmentedResponse
import OpenSpodes.Soundness.LinkDelivery
import OpenSpodes.Soundness.FreshLink
import OpenSpodes.Soundness.ApduTransport
import OpenSpodes.Soundness.DecodingSafety
import OpenSpodes.Soundness.DecodingWork
import OpenSpodes.Soundness.BitStringBounds
import OpenSpodes.Soundness.BlockReceipt
import OpenSpodes.Soundness.KeyedTable
import OpenSpodes.Soundness.AcseRoundTrip
import OpenSpodes.Soundness.BufferExhaustion
import OpenSpodes.Soundness.ListAttributes
import OpenSpodes.Soundness.CacheFidelity
import OpenSpodes.Soundness.SignatureNonce
import OpenSpodes.Soundness.InitiateRoundTrip
import OpenSpodes.Soundness.WideArithmetic
import OpenSpodes.Soundness.AesBlock
