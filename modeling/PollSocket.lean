import PollSocket.Exchange.Desk
import PollSocket.Framed.Pipe
import PollSocket.Log.Template
import PollSocket.Main
import PollSocket.Poll.Desk
import PollSocket.Proofs.Cli.Dialogue
import PollSocket.Proofs.Framed.Frames
import PollSocket.Proofs.Link.AtMostOnce
import PollSocket.Proofs.Poll.Wakes
import PollSocket.Proofs.Loop.Driven
import PollSocket.Proofs.Socket.Throws
import PollSocket.Proofs.Socket.Sharing
import PollSocket.Proofs.Server.Broadcast
import PollSocket.Proofs.Server.Calls
import PollSocket.Proofs.Server.Isolation
import PollSocket.Proofs.BodyLimit
