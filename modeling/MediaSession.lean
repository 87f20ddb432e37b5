import MediaSession.ChannelId
import MediaSession.Configuration.File
import MediaSession.Errand
import MediaSession.Json.Reader
import MediaSession.Json.Writer
import MediaSession.Logging
import MediaSession.Rehearsal.Play
import MediaSession.Proofs.CandidateFlow
import MediaSession.Proofs.Outcomes
import MediaSession.Proofs.Registration
import MediaSession.Proofs.SubscribeJoin
import MediaSession.Proofs.CallRegistry
import MediaSession.Proofs.TaskFlow
import MediaSession.Proofs.Spending
import MediaSession.Proofs.PathRestart
import MediaSession.Proofs.LateAcknowledgement
import MediaSession.Proofs.Notices
import MediaSession.Proofs.Rejection
import MediaSession.Proofs.EngineUse
import MediaSession.Proofs.ClosedConnection
import MediaSession.Proofs.ConnectivityLoss
import MediaSession.Proofs.Aftermath
import MediaSession.Proofs.DirectCalls
import MediaSession.Proofs.Parting
import MediaSession.Proofs.HandshakeFailure
import MediaSession.Proofs.NegotiationCourse
import MediaSession.Proofs.Addressing
import MediaSession.Proofs.SuccessSession
import MediaSession.Proofs.DescriptionFlow
import MediaSession.Proofs.Stability
import MediaSession.Proofs.FailureNotices
import MediaSession.Proofs.Withdrawal
import MediaSession.Proofs.WireForm
import MediaSession.Proofs.CodecRanking
import MediaSession.Proofs.IndependentRewriting
import MediaSession.Proofs.MediaSections
import MediaSession.Proofs.CodecRewriting
import MediaSession.Proofs.ConnectivityEdges
import MediaSession.Proofs.ServerMessages
import MediaSession.Proofs.MediaLines
import MediaSession.Proofs.Observers
import MediaSession.Proofs.QualityLevel
import MediaSession.Proofs.SubscribeOffers
import MediaSession.Proofs.OutgoingTraffic
