import Awl.GoMap
import Awl.NetIP
import Awl.Subnet
import Awl.Text
import Awl.Config
import Awl.NetworkAddr
import Awl.Chan
import Awl.Packet
import Awl.TwoWay
import Awl.Tunnel
import Awl.TunnelInv
import Awl.TunnelPeers
import Awl.TunnelIndex
import Awl.TunnelRefresh
import Awl.Runs
import Awl.Goroutine
import Awl.Defaults
import Awl.AuthStatus
import Awl.PeersApi
import Awl.Alloc
import Awl.Serial
import Awl.Addresses
import Awl.Reader
import Awl.Framing
import Awl.Ownership
import Awl.Buffers
import Awl.BuffersInv
import Awl.BuffersRun
import Awl.Outbound
import Awl.Unicast
import Awl.Calls
import Awl.Laws
import Awl.Integrity
import Awl.Apart
import Awl.Parties
import Awl.Consent
import Awl.ConsentCode
import Awl.ConsentCalls
import Awl.Mutual
import Awl.Leads
import Awl.Linked
import Awl.Friends
import Awl.FriendsCode
import Awl.FriendsSafe
import Awl.Friendship
import Awl.Threads
import Awl.Invitations
import Awl.Uninvited
import Awl.Removal
import Awl.Permission
import Awl.Agreement
import Awl.Aliases
import Awl.Race
import Awl.RaceThreads
import Awl.Records
import Awl.LostUpdate
import Awl.AddCalls
import Awl.AddLinear
import Awl.Operations
import Awl.Selection
import Awl.Reload
import Awl.Saved
import Awl.UniqueAliases
import Awl.Base58
import Awl.Json
import Awl.ConfigText
import Awl.CrashSafety
import Awl.Guarded
import Awl.EventBus
import Awl.Deadlock
import Awl.MapBuild
import Awl.Dns
import Awl.DnsNames
import Awl.OwnPeer
import Awl.Overwrite
import Awl.OnesComplement
import Awl.Checksum
import Awl.ChecksumSum
import Awl.Rewritten
import Awl.Fragments
import Awl.Compaction
import Awl.Oversize
import Awl.Frames
import Awl.CutStream
import Awl.FreeAddr
import Awl.RingBuffer
import Awl.DnsServer
import Awl.DnsMaps
import Awl.StreamLimit
import Awl.Spellings
import Awl.AllocLoop
import Awl.FriendCalls
import Awl.Suggestions
import Awl.LoadTwice
import Awl.AutoAccept
import Awl.ReadBack
import Awl.StreamsEqual
import Awl.ProxyRules
import Awl.ProxyConn
import Awl.Bootstrap
import Awl.SortFunc
import Awl.RelaySource
import Awl.WireNames
import Awl.Transit
import Awl.TransitFrames
import Awl.TransitInv
import Awl.TransitSend
import Awl.TransitRun
import Awl.RefreshRest
import Awl.InboundPath
import Awl.InboundPathInv
import Awl.InboundPathRun
import Awl.DhtBootstrap
import Awl.ExitNode
import Awl.ExitConsent
import Awl.ExitConsentCode
import Awl.ExitPair
import Awl.ProxyListener
import Awl.Utf8
import Awl.LogView
import Awl.DialRanker
import Awl.Duties
import Awl.Unanswered
import Awl.Retries
import Awl.UserAgent
import Awl.Listings
import Awl.Lifecycle
