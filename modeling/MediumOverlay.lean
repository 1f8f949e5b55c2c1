import MediumOverlay.Transport.Nonces
import MediumOverlay.Transport.Inbox
import MediumOverlay.Transport.Stray
import MediumOverlay.Transport.Handshakes
import MediumOverlay.Transport.Connect
import MediumOverlay.Transport.Punches
import MediumOverlay.Transport.Lifetimes
import MediumOverlay.Transport.Diagnostics
import MediumOverlay.Relay.Rendezvous
import MediumOverlay.Relay.Pairing
import MediumOverlay.Relay.WssForwarding
import MediumOverlay.ControlPlane.Integrity
import MediumOverlay.ControlPlane.IceAddresses
import MediumOverlay.Cli.SessionQuery
import MediumOverlay.Cli.ProxyCommand
import MediumOverlay.Netstack.Responder
import MediumOverlay.Netstack.HangUp
import MediumOverlay.Android.WebSocket
import MediumOverlay.Android.Isolation
import MediumOverlay.Android.Catalogue
import MediumOverlay.Apple.Wire
import MediumOverlay.Apple.Descriptors
import MediumOverlay.Apple.Completeness
import MediumOverlay.HomeNode.CopyLoop
import MediumOverlay.HomeNode.Service
import MediumOverlay.HomeNode.Publication
import MediumOverlay.HomeNode.Transparency
import MediumOverlay.HomeNode.WssHello
import MediumOverlay.Naming
import MediumOverlay.JoinInvite
