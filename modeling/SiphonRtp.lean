import SiphonRtp.Codec.G722
import SiphonRtp.Codec.G726
import SiphonRtp.Codec.Laplace
import SiphonRtp.Codec.Pvq
import SiphonRtp.Datapath.Nomination
import SiphonRtp.Datapath.Removal
import SiphonRtp.Datapath.StaleLatch
import SiphonRtp.Engine.AppPackets
import SiphonRtp.Engine.BridgeLatch
import SiphonRtp.Engine.CallKeys
import SiphonRtp.Engine.FloorAnswers
import SiphonRtp.Engine.FloorFailover
import SiphonRtp.Engine.FloorLatch
import SiphonRtp.Engine.FloorNonces
import SiphonRtp.Engine.HexText
import SiphonRtp.Engine.OffTick
import SiphonRtp.Engine.RefusedTraffic
import SiphonRtp.Engine.ReportDates
import SiphonRtp.Engine.SharedEncode
import SiphonRtp.Engine.Transcode
import SiphonRtp.Ice.Bookkeeping
import SiphonRtp.Ice.Integrity
import SiphonRtp.Ice.ProvenPaths
import SiphonRtp.Media.Downlink
import SiphonRtp.Media.ExactMix
import SiphonRtp.Media.FractionLost
import SiphonRtp.Media.LoopedPlayback
import SiphonRtp.Media.OwnNumbers
import SiphonRtp.Media.TextChunks
import SiphonRtp.Media.TextMixer
import SiphonRtp.Srtp.Delivery
import SiphonRtp.Srtp.GcmRoundTrip
import SiphonRtp.Srtp.Handoff
import SiphonRtp.Srtp.RejectedTraffic
import SiphonRtp.Srtp.RestoredIndex
import SiphonRtp.Srtp.RolloverAnchor
import SiphonRtp.Srtp.RtcpIndex
import SiphonRtp.Srtp.Sdes
import SiphonRtp.Stun.Retransmission
import SiphonRtp.Turn.Authorization
import SiphonRtp.Turn.Bandwidth
import SiphonRtp.Turn.Lifetimes
import SiphonRtp.Turn.MappedPeers
import SiphonRtp.Turn.Ownership
import SiphonRtp.Turn.StreamFraming
import SiphonRtp.Xdp.HeaderChecksum
import SiphonRtp.Xdp.LossEstimate
import SiphonRtp.Xdp.RtcpHandUp
