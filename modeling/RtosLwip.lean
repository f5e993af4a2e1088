import RtosLwip.Flash.Writer
import RtosLwip.Boot.Update
import RtosLwip.Http.PendingUpdate
import RtosLwip.Ptp.ForeignMaster
import RtosLwip.Ptp.Master
import RtosLwip.Ptp.Announce
import RtosLwip.Ptp.SyncPairing
import RtosLwip.Ptp.PeerDelay
import RtosLwip.Ptp.TimersAlive
import RtosLwip.Ptp.SharedBuffer
import RtosLwip.Ptp.DataSetOrder
import RtosLwip.Ptp.Smoothing
import RtosLwip.Ptp.SendFailure
import RtosLwip.Ptp.SequenceIds
import RtosLwip.Cmd.Footprint
import RtosLwip.Cmd.Stored
import RtosLwip.Flash.Regions
import RtosLwip.Cmd.Ownership
import RtosLwip.Media.Agreement
import RtosLwip.Media.Acknowledged
import RtosLwip.Media.Params
import RtosLwip.Board.Fpga
import RtosLwip.Board.Operation
import RtosLwip.Board.MulticastMac
import RtosLwip.Board.MulticastFlag
import RtosLwip.Board.Groups
import RtosLwip.Board.Configured
import RtosLwip.Cmd.MediaFrame
import RtosLwip.Boot.Copy
import RtosLwip.Boot.Configuration
import RtosLwip.Flash.Transfer
import RtosLwip.Tftp.Server
import RtosLwip.Tftp.PendingUpdate
import RtosLwip.Base.Channel
import RtosLwip.Tftp.Delivery
import RtosLwip.Flash.Chip
import RtosLwip.Flash.Sharing
import RtosLwip.Http.Write
import RtosLwip.Http.FileSend
import RtosLwip.Http.ResponseSend
import RtosLwip.Http.Connections
import RtosLwip.Http.Request
import RtosLwip.Http.Searches
import RtosLwip.Http.Delivery
import RtosLwip.Http.Segmentation
import RtosLwip.Ptp.DelayInterval
import RtosLwip.Ptp.ExactOffset
import RtosLwip.Cmd.Members
import RtosLwip.Cli.CommandLine
import RtosLwip.Cli.Telnetd
import RtosLwip.Cli.Answered
import RtosLwip.Cli.Buffer
import RtosLwip.Cli.Executed
import RtosLwip.Cli.Prompts
import RtosLwip.Ptp.NetPath
import RtosLwip.Ptp.Released
import RtosLwip.Cmd.ReplyStatus
import RtosLwip.Board.Formats
import RtosLwip.Cmd.HexData
import RtosLwip.Cmd.Identifiers
import RtosLwip.Cmd.Checksum
import RtosLwip.Boot.FailedPages
import RtosLwip.Flash.Addressing
import RtosLwip.Http.WebPages
import RtosLwip.Http.WebSocketEcho
import RtosLwip.Ptp.ExactSums
import RtosLwip.Ptp.PacketQueue
import RtosLwip.Ptp.Drift
import RtosLwip.Cli.Arguments
import RtosLwip.Mdns.Client
import RtosLwip.Mdns.Query
import RtosLwip.Mdns.Records
import RtosLwip.Mdns.Answers
import RtosLwip.Base.Siblings
import RtosLwip.Nmos.Node
import RtosLwip.Nmos.Connection
import RtosLwip.Nmos.Uri
import RtosLwip.Nmos.Rest
import RtosLwip.Rtos.HeapRuns
import RtosLwip.Mqtt.Packets
import RtosLwip.Cmd.Documents
import RtosLwip.Rtos.Lists
import RtosLwip.Rtos.Kernel
import RtosLwip.Rtos.Timeouts
import RtosLwip.Rtos.RoundRobin
import RtosLwip.Inet.Chksum
