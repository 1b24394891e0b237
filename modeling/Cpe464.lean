import Cpe464.Library.Transition
import Cpe464.RemoteCopy.Packet
import Cpe464.RemoteCopy.Encodings
import Cpe464.RemoteCopy.BoundedMap
import Cpe464.RemoteCopy.Rcopy
import Cpe464.RemoteCopy.Integrity
import Cpe464.RemoteCopy.Retransmission
import Cpe464.RemoteCopy.Request
import Cpe464.RemoteCopy.Abandoned
import Cpe464.RemoteCopy.Rejection
import Cpe464.RemoteCopy.OneLoss
import Cpe464.Chat.Listing
import Cpe464.Chat.Malformed
import Cpe464.Chat.Direct
import Cpe464.Chat.Buffers
import Cpe464.Chat.Serve
import Cpe464.Chat.Input
import Cpe464.Chat.Framing
import Cpe464.Chat.Admission
import Cpe464.Chat.Numbering
import Cpe464.Chat.Session
import Cpe464.Chat.Broadcast
import Cpe464.Trace.Decoding
import Cpe464.Trace.Checksums
import Cpe464.Chat.Mail
import Cpe464.Chat.Directory
import Cpe464.Trace.Capture
import Cpe464.Errors.Settings
import Cpe464.Original.Exchange
import Cpe464.Original.Process
import Cpe464.Original.Request
import Cpe464.Original.Hooked
