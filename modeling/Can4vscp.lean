import Can4vscp.Lib.Memory
import Can4vscp.Lib.ByteStuffing
import Can4vscp.Lib.ReadProgram
import Can4vscp.Protocol
import Can4vscp.Receiver
import Can4vscp.Sync
import Can4vscp.Deframe
import Can4vscp.Driver
import Can4vscp.ReadSerialData
import Can4vscp.Locality
import Can4vscp.Lib.Machine
import Can4vscp.Lib.Progress
import Can4vscp.Lib.Refinement
import Can4vscp.Lib.SeqNumber
import Can4vscp.Lib.Repeats
import Can4vscp.Transmit
import Can4vscp.PlainTransmit
import Can4vscp.AckTransmit
import Can4vscp.Retransmit
import Can4vscp.TransmitEvent
import Can4vscp.Lib.Census
import Can4vscp.ReceiveQueue
import Can4vscp.ReceiveEvent
import Can4vscp.Lib.History
import Can4vscp.Commands
import Can4vscp.Matching
import Can4vscp.ReplyFound
import Can4vscp.Interference
import Can4vscp.Handshake
import Can4vscp.Lib.Pipeline
import Can4vscp.Emulator
import Can4vscp.TransmitMessage
import Can4vscp.ReceiveThread
import Can4vscp.RequestReply
import Can4vscp.Loopback
import Can4vscp.Branches
import Can4vscp.Lib.MaskedMatch
import Can4vscp.Filter
import Can4vscp.FrameReplies
import Can4vscp.AckLoopback
import Can4vscp.ReceiveAccounts
import Can4vscp.EncodeSafety
import Can4vscp.Lib.SlotTable
import Can4vscp.HandleTable
import Can4vscp.CanalApi
import Can4vscp.CanalSession
import Can4vscp.TransmitBound
import Can4vscp.BackPressure
import Can4vscp.WriterWakeup
import Can4vscp.EventWakeup
import Can4vscp.Closing
import Can4vscp.CloseTokens
import Can4vscp.TransmitProgress
import Can4vscp.AckProgress
import Can4vscp.Shutdown
import Can4vscp.Reopen
import Can4vscp.FrameGrammar
import Can4vscp.Lib.Checksum
import Can4vscp.CrcDetect
import Can4vscp.Senders
import Can4vscp.Wire
import Can4vscp.AdapterHears
import Can4vscp.Lib.Lockstep
import Can4vscp.Deframers
import Can4vscp.Lib.Records
import Can4vscp.RawSubFrames
import Can4vscp.RawFrames
import Can4vscp.Timestamps
import Can4vscp.Malformed
import Can4vscp.FilteredFrames
import Can4vscp.Lib.WrapClock
import Can4vscp.Clock
import Can4vscp.ReplyTimeout
import Can4vscp.Inactivity
import Can4vscp.Lib.CString
import Can4vscp.OpenPort
import Can4vscp.Lib.MemProgram
import Can4vscp.ConfigTokens
import Can4vscp.ConfigParse
import Can4vscp.OpenRunning
