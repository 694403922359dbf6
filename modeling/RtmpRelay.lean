import RtmpRelay.Main
import RtmpRelay.Proofs.Delivery
import RtmpRelay.Proofs.HeaderCompression
import RtmpRelay.Proofs.Multiplexing
import RtmpRelay.Proofs.Nesting
import RtmpRelay.Proofs.Roles
import RtmpRelay.Proofs.Rounds
import RtmpRelay.Proofs.WrittenForms
import RtmpRelay.Proofs.RoundTrip
import RtmpRelay.Proofs.Forwarding
import RtmpRelay.Proofs.Alongside
import RtmpRelay.Proofs.Handback
import RtmpRelay.Proofs.Gap
import RtmpRelay.Proofs.Lookahead
import RtmpRelay.Proofs.Acknowledging
import RtmpRelay.Proofs.Surfacing
import RtmpRelay.Proofs.Lasting
import RtmpRelay.Proofs.Playback
import RtmpRelay.Proofs.Grammar
import RtmpRelay.Proofs.Sharing
import RtmpRelay.Proofs.Refusals
import RtmpRelay.Proofs.Dialogue
import RtmpRelay.Proofs.Chunking
import RtmpRelay.Proofs.Decoded
import RtmpRelay.Proofs.Rewriting
import RtmpRelay.Proofs.Tables
import RtmpRelay.Proofs.WholeNumbers
import RtmpRelay.Proofs.Appending
import RtmpRelay.Proofs.Bookkeeping
