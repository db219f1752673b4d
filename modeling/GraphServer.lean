import GraphServer.Buffer.Bench
import GraphServer.Handler.Script
import GraphServer.Proofs.Buffer.Commons
import GraphServer.Proofs.Buffer.Growing
import GraphServer.Proofs.Buffer.History
import GraphServer.Proofs.Buffer.Release
import GraphServer.Proofs.Codec.Bypass
import GraphServer.Proofs.Codec.Canonical
import GraphServer.Proofs.Codec.Confined
import GraphServer.Proofs.Codec.Depth
import GraphServer.Proofs.Codec.Guarded
import GraphServer.Proofs.Codec.Uneven
import GraphServer.Proofs.Codec.RoundTrip
import GraphServer.System.Client
import GraphServer.System.Event
import GraphServer.Value.Order
import GraphServer.Proofs.Session.Attention
import GraphServer.Proofs.Session.Books
import GraphServer.Proofs.Session.Farewell
import GraphServer.Proofs.Session.Launch
import GraphServer.Proofs.Frame.Overlong
import GraphServer.Proofs.Message.Delimited
import GraphServer.Proofs.Message.Replaced
import GraphServer.Proofs.Message.RoundTrip
import GraphServer.Proofs.Outbound.Traffic
import GraphServer.Proofs.Server.Affects
import GraphServer.Proofs.Server.Annals
import GraphServer.Proofs.Server.Answered
import GraphServer.Proofs.Server.Archive
import GraphServer.Proofs.Server.Directory
import GraphServer.Proofs.Server.Isolation
import GraphServer.Proofs.Server.Teardown
import GraphServer.Proofs.Session.Lineup
import GraphServer.Proofs.Session.Succession
import GraphServer.Proofs.Value.Numbers
import GraphServer.Proofs.Value.Coherent
import GraphServer.Proofs.Session.Standstill
import GraphServer.Proofs.Session.Limit
import GraphServer.Proofs.Codec.Replacement
import GraphServer.Proofs.Codec.Spelled
import GraphServer.Proofs.Server.Aftermath
import GraphServer.Proofs.Server.Transcribed
