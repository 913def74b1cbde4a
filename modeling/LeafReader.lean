import LeafReader.Run
import LeafReader.ResponseMac
import LeafReader.OpStep
import LeafReader.CounterSync
import LeafReader.IvFresh
import LeafReader.SessionFlag
import LeafReader.EncStore
import LeafReader.ReadModes
import LeafReader.Personalize
import LeafReader.Pn5180Sync
import LeafReader.Pn5180Standard
import LeafReader.ChipSwap
import LeafReader.FindTarget
import LeafReader.ModeSet
import LeafReader.Indicator
import LeafReader.Enrol
import LeafReader.Handshake
import LeafReader.ChangeKey
import LeafReader.MacKeySlot
import LeafReader.Recovery
import LeafReader.SentBytes
import LeafReader.CmacSpec
import LeafReader.EncPadding
import LeafReader.WriteRequests
import LeafReader.ReadRelease
import LeafReader.UidAssembly
import LeafReader.ApduNumbers
import LeafReader.KeyInputs
import LeafReader.Pn532Frames
import LeafReader.ReleasePairing
import LeafReader.BootKey
import LeafReader.EventBus
import LeafReader.SplitArgs
import LeafReader.WsJson
import LeafReader.EnrolNumbers
import LeafReader.KeySlotRuns
import LeafReader.Ring
import LeafReader.OsdpSc
import LeafReader.OsdpOnline
import LeafReader.OsdpCpSafety
import LeafReader.OsdpPdGate
import LeafReader.OsdpPdSession
import LeafReader.OsdpRetry
