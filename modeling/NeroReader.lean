import NeroReader.Driver
import NeroReader.IsoDepFrame
import NeroReader.IsoDepTransceive
import NeroReader.IsoDepFragments
import NeroReader.IsoDepExchange
import NeroReader.IsoDepTransparency
import NeroReader.IsoDepContinuation
import NeroReader.Sequential
import NeroReader.StorageNdef
import NeroReader.StorageUpdate
import NeroReader.Looked
import NeroReader.RawFilter
import NeroReader.RawFilterSafety
import NeroReader.CcidCodec
import NeroReader.CcidSession
import NeroReader.CcidBulk
import NeroReader.CcidInvariant
import NeroReader.CcidAnswers
import NeroReader.CcidLifecycle
import NeroReader.CcidResponses
import NeroReader.CcidChaining
import NeroReader.IsoDepSession
import NeroReader.SecurityKeyRelay
import NeroReader.IsoDepCard
import NeroReader.IsoDepInStep
import NeroReader.SecurityKeyLink
import NeroReader.NdefTlv
import NeroReader.NdefWalk
import NeroReader.TagReading
import NeroReader.TagPresentation
import NeroReader.HostStorage
import NeroReader.HostStorageReads
import NeroReader.BlockTransfer
import NeroReader.CcidResponseChaining
import NeroReader.UsbRxAssembly
import NeroReader.Dialogue
import NeroReader.FileUpdate
import NeroReader.HostAbort
import NeroReader.Type4Write
import NeroReader.Type4Read
import NeroReader.Type4WriteSafety
import NeroReader.Attributes
import NeroReader.CString
import NeroReader.Cbor
import NeroReader.CtapGetAssertion
import NeroReader.HostNdef
import NeroReader.HostNdefCodec
import NeroReader.HostWriter
import NeroReader.PercentQuery
import NeroReader.NdefPrint
import NeroReader.WriterPayload
import NeroReader.WriterReadBack
import NeroReader.WriterContact
import NeroReader.WifiRecords
import NeroReader.BitStream
import NeroReader.BulkWrite
import NeroReader.FastRead
import NeroReader.Iso15693Stream
import NeroReader.ModeScan
import NeroReader.Type5Addressing
import NeroReader.Type5Write
import NeroReader.Type5WriteArea
import NeroReader.ReaderNdef
import NeroReader.ReaderNdefRoundTrip
import NeroReader.WriterCli
import NeroReader.WriterCliKept
import NeroReader.WriterCliRuns
import NeroReader.AtsTiming
import NeroReader.CborGrammar
import NeroReader.CborSkip
import NeroReader.CborBytes
import NeroReader.CtapApdu
import NeroReader.IsoDepCeiling
import NeroReader.Type5ReadMultiple
import NeroReader.WriterIsoDep
import NeroReader.Type4Container
import NeroReader.HostDispatch
import NeroReader.ApplicationGate
import NeroReader.StorageRead
import NeroReader.HostAnswers
import NeroReader.DriverEndless
import NeroReader.IsoDepTermination
import NeroReader.HostRawRead
import NeroReader.FiniteLoop
import NeroReader.NeededPages
import NeroReader.TlvCapacity
import NeroReader.BlockCode
import NeroReader.StreamEncode
import NeroReader.FilledBuffer
import NeroReader.Type5BlockWrite
import NeroReader.Anticollision
import NeroReader.ReaderLoop
import NeroReader.RingBuffer
import NeroReader.SerialConsole
import NeroReader.Separation
import NeroReader.WriterApp
import NeroReader.WriterType2
import NeroReader.WriterType5
