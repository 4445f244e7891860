import Furikup.Lib.Machine
import Furikup.Lib.CText
import Furikup.Lib.Scan
import Furikup.Lib.Polling
import Furikup.Lib.CFile
import Furikup.Lib.Cells
import Furikup.Lib.Printf
import Furikup.Lib.Counter
import Furikup.Lib.CString
import Furikup.Sdp
import Furikup.Codec
import Furikup.SdpSections
import Furikup.Media
import Furikup.FileInput
import Furikup.Engine
import Furikup.Steps
import Furikup.Lifecycle
import Furikup.Calls
import Furikup.Negotiation
import Furikup.Advertised
import Furikup.VideoNegotiation
import Furikup.Locks
import Furikup.Handshake
import Furikup.Exits
import Furikup.Shutdown
import Furikup.Registration
import Furikup.Notices
import Furikup.TextGui
import Furikup.KeyPress
import Furikup.Ring
import Furikup.Presence
import Furikup.ConfigFile
import Furikup.ConfigOrder
import Furikup.ConfigStrings
import Furikup.Addressbook
import Furikup.Handover
import Furikup.StatusBox
import Furikup.Messages
import Furikup.Capture
import Furikup.PortCounter
import Furikup.LineBuffer
import Furikup.ContactMenu
import Furikup.G711
import Furikup.Lib.Exchange
import Furikup.Lib.Quantizer
import Furikup.Osip.Lifetime
import Furikup.Osip.Matching
import Furikup.Osip.Message
import Furikup.Osip.Moves
import Furikup.Osip.Pair
import Furikup.Osip.Stack
import Furikup.Osip.Timing
import Furikup.Osip.Transaction
import Furikup.Lib.Serial
import Furikup.Rtp.Packet
import Furikup.Rtp.Session
import Furikup.Lib.Descent
import Furikup.OsipSdp.Fields
import Furikup.OsipSdp.Message
import Furikup.OsipSdp.RoundTrip
