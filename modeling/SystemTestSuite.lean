import SystemTestSuite.GsmDaemon.LlparseFraming
import SystemTestSuite.GsmDaemon.QueueOrder
import SystemTestSuite.GsmDaemon.InFlight
import SystemTestSuite.GsmDaemon.WriteInterest
import SystemTestSuite.GsmDaemon.PromptError
import SystemTestSuite.GsmDaemon.WakeupRuns
import SystemTestSuite.GsmDaemon.Isolation
import SystemTestSuite.GsmDaemon.Transparency
import SystemTestSuite.GsmDaemon.SmsSubmit
import SystemTestSuite.GsmDaemon.SmsBounds
import SystemTestSuite.GsmDaemon.SmsDeliver
import SystemTestSuite.GsmDaemon.SmsStored
import SystemTestSuite.GsmDaemon.SmsReport
import SystemTestSuite.GsmDaemon.ClientFraming
import SystemTestSuite.GsmDaemon.EventFanout
import SystemTestSuite.GsmDaemon.Replies
import SystemTestSuite.Libgsmd.Reassembly
import SystemTestSuite.Libgsmd.BlockingWait
import SystemTestSuite.Libgsmd.PacketLoop
import SystemTestSuite.Libgsmd.SevenBitText
import SystemTestSuite.Libgsmd.ReceivedText
import SystemTestSuite.GsmDaemon.ReplyIds
import SystemTestSuite.Libglamo.CommandRing
import SystemTestSuite.Dm2.TestFlow
import SystemTestSuite.Dm2.GsvDecode
import SystemTestSuite.Dm2.Repaint
import SystemTestSuite.GsmDaemon.MlbufUses
import SystemTestSuite.GsmDaemon.ClientLife
import SystemTestSuite.GsmDaemon.PromptedLines
import SystemTestSuite.GsmDaemon.CommandTexts
import SystemTestSuite.GsmDaemon.Listing
import SystemTestSuite.GsmDaemon.PhonebookRuns
import SystemTestSuite.GsmDaemon.LlparseResync
import SystemTestSuite.GsmDaemon.LlparseLfcr
import SystemTestSuite.GsmDaemon.HexReaders
import SystemTestSuite.GsmDaemon.SubmitBounds
import SystemTestSuite.GsmDaemon.TwoLines
import SystemTestSuite.Libgsmd.PackingBounds
import SystemTestSuite.Libgsmd.PhoneNumber
import SystemTestSuite.GsmDaemon.AlphaAddress
import SystemTestSuite.GsmDaemon.ExtSupports
import SystemTestSuite.GsmDaemon.VendorTi
import SystemTestSuite.GsmDaemon.OperatorCache
import SystemTestSuite.GsmDaemon.TimerRuns
import SystemTestSuite.GsmDaemon.PhonebookLines
import SystemTestSuite.GsmDaemon.PhonebookRetrieval
import SystemTestSuite.GsmDaemon.UnsolicitedFields
import SystemTestSuite.GsmDaemon.PowerState
import SystemTestSuite.GsmDaemon.OperatorTexts
import SystemTestSuite.Dm2.CnReport
import SystemTestSuite.Dm2.ZdaDate
import SystemTestSuite.Dm2.Ubx
import SystemTestSuite.Dm2.SensorTest
import SystemTestSuite.Dm2.FrameMemory
import SystemTestSuite.Dm2.LineDrawing
import SystemTestSuite.Dm2.PressTracking
import SystemTestSuite.Dm2.RectangleAlgebra
import SystemTestSuite.Dm2.ViewText
import SystemTestSuite.Dm2.PopupLayout
import SystemTestSuite.Dm1Uboot.LisSpi
import SystemTestSuite.Libgsmd.CellBroadcast
import SystemTestSuite.GsmDaemon.StorageList
import SystemTestSuite.Libglamo.MmioStream
import SystemTestSuite.Dm2.LogServer
import SystemTestSuite.GsmDaemon.LinuxList
import SystemTestSuite.GsmDaemon.Select
import SystemTestSuite.GsmDaemon.OperatorLinks
import SystemTestSuite.GsmDaemon.Talloc
import SystemTestSuite.GsmDaemon.TallocForest
import SystemTestSuite.GsmDaemon.TallocMove
import SystemTestSuite.GsmDaemon.TallocRuns
import SystemTestSuite.Libgsmd.Requests
import SystemTestSuite.Libgsmd.RequestDelivery
import SystemTestSuite.Libgsmd.RequestRuns
import SystemTestSuite.Libgsmd.StoredText
import SystemTestSuite.GsmDaemon.EventSources
import SystemTestSuite.Libgsmd.EventDispatch
import SystemTestSuite.Libgsmd.EventDelivery
import SystemTestSuite.Libgsmd.EventRuns
import SystemTestSuite.Libgsmd.PinDialogue
import SystemTestSuite.GsmDaemon.MessageReads
