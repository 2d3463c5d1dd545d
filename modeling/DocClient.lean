import DocClient.Client.Connect
import DocClient.Client.Crowd
import DocClient.Command
import DocClient.Console.Output
import DocClient.Journal
import DocClient.Number.Text
import DocClient.Proofs.Address
import DocClient.Proofs.Agreement
import DocClient.Proofs.Channel.Framing
import DocClient.Proofs.Client.Attribution
import DocClient.Proofs.Client.Crowd
import DocClient.Proofs.Client.LifeCycle
import DocClient.Proofs.Client.Pairing
import DocClient.Proofs.Client.Secrecy
import DocClient.Proofs.Client.Selection
import DocClient.Proofs.Client.Timeouts
import DocClient.Proofs.Console.Closing
import DocClient.Proofs.Disclosure
import DocClient.Proofs.Login.Decision
import DocClient.Proofs.Login.Recovery
import DocClient.Proofs.Rejection
import DocClient.Proofs.Statement.Comparison
import DocClient.Proofs.Statement.Constructed
import DocClient.Proofs.Statement.Insertion
import DocClient.Proofs.Wire.RoundTrip
import DocClient.Script.Responder
import DocClient.Script.Terminal
import DocClient.Settings
import DocClient.Wire.Reply
import DocClient.Wire.Request
