import LinkP2p.Tun.RingList
import LinkP2p.Tun.PhonePhase
import LinkP2p.Tun.TieBreak
import LinkP2p.Tun.RosterCodec
import LinkP2p.Tun.HubOwnership
import LinkP2p.Tun.HubSpoof
import LinkP2p.Tun.HubNewest
import LinkP2p.Tun.HubFans
import LinkP2p.Tun.HubRoutes
import LinkP2p.Tun.RosterConvergence
import LinkP2p.Tun.HubHidden
import LinkP2p.Tun.SpokeHidden
import LinkP2p.Tun.SpokeAuthentic
import LinkP2p.Tun.SpokeEntries
import LinkP2p.Tun.SpokeUpdates
import LinkP2p.Tun.IfaceMtu
import LinkP2p.Tun.SpokeBackoff
import LinkP2p.Stream.SlotOpeners
import LinkP2p.Stream.LocalListen
import LinkP2p.Stream.Ssrf
import LinkP2p.Stream.ServePermits
import LinkP2p.Daemon.Shutdown
import LinkP2p.Daemon.Join
import LinkP2p.Daemon.Liveness
import LinkP2p.Identity.Migrate
import LinkP2p.Contacts.TokenPanic
import LinkP2p.Contacts.CheckSymbol
import LinkP2p.Daemon.UpCarried
import LinkP2p.Daemon.CtlFrame
import LinkP2p.Daemon.CtlAnswers
import LinkP2p.Contacts.CodeGrammar
import LinkP2p.Identity.Strict
import LinkP2p.Lib.Checksum
import LinkP2p.Tun.IcmpError
import LinkP2p.Lib.RateWindow
import LinkP2p.Tun.PeerSender
import LinkP2p.Tun.MtuCell
import LinkP2p.Tun.TunIo
import LinkP2p.Lib.Failing
import LinkP2p.Stream.TargetCodec
import LinkP2p.Stream.Handshake
import LinkP2p.I18n.Format
import LinkP2p.I18n.Lossy
import LinkP2p.I18n.Catalogue
import LinkP2p.Tun.VipAllocation
import LinkP2p.Daemon.ReadyLoop
import LinkP2p.Lib.CommandLine
import LinkP2p.Lib.UnitFile
import LinkP2p.Service.Unit
import LinkP2p.Lib.PropertyList
import LinkP2p.Service.Plist
import LinkP2p.Lib.Copy
import LinkP2p.Lib.SideBySide
import LinkP2p.Stream.Pipe
import LinkP2p.Stream.Forwarding
import LinkP2p.Tun.RosterQueues
import LinkP2p.Daemon.CallFiles
import LinkP2p.Lib.Exchange
import LinkP2p.Tun.VipExchange
import LinkP2p.Tun.Journey
import LinkP2p.Tun.Announced
import LinkP2p.Contacts.Commands
import LinkP2p.Tun.Deployment
import LinkP2p.Daemon.RelayProbe
import LinkP2p.Lib.Latch
import LinkP2p.Stream.PathMonitor
import LinkP2p.Tun.PhoneCalls
import LinkP2p.Tun.PhonePackets
