import Tun2SocksWinRT.PointerChain
import Tun2SocksWinRT.SLinkedList
import Tun2SocksWinRT.BPending
import Tun2SocksWinRT.BReactorSynchronize
import Tun2SocksWinRT.ByteMemory
import Tun2SocksWinRT.ChunkBuffer2
import Tun2SocksWinRT.PacketProto
import Tun2SocksWinRT.PacketProtoDecoder
import Tun2SocksWinRT.BAddr
import Tun2SocksWinRT.BSocksClient
import Tun2SocksWinRT.KeyedIndex
import Tun2SocksWinRT.UdpgwProto
import Tun2SocksWinRT.UdpGwClient
import Tun2SocksWinRT.UdpGwClientTable
import Tun2SocksWinRT.UdpgwServer
import Tun2SocksWinRT.UdpgwSystem
import Tun2SocksWinRT.Teardown
import Tun2SocksWinRT.SendPath
import Tun2SocksWinRT.SendPathStream
import Tun2SocksWinRT.UdpgwWire
import Tun2SocksWinRT.Recency
import Tun2SocksWinRT.UdpGwClientRecency
import Tun2SocksWinRT.BSocksClientEvents
import Tun2SocksWinRT.OnesComplement
import Tun2SocksWinRT.IpProto
import Tun2SocksWinRT.DeviceUdp
import Tun2SocksWinRT.BReactorTimers
import Tun2SocksWinRT.SortedTree
import Tun2SocksWinRT.PacketPassFairQueue
import Tun2SocksWinRT.Tun2Socks
import Tun2SocksWinRT.CAvl
import Tun2SocksWinRT.TreeZipper
import Tun2SocksWinRT.CAvlInvariant
import Tun2SocksWinRT.CAvlQueries
import Tun2SocksWinRT.BAVL
import Tun2SocksWinRT.Ipaddr6
import Tun2SocksWinRT.Ipaddr6Text
import Tun2SocksWinRT.Ipaddr6Print
import Tun2SocksWinRT.DigitText
import Tun2SocksWinRT.ParseNumber
import Tun2SocksWinRT.ByteBits
import Tun2SocksWinRT.Ipaddr
import Tun2SocksWinRT.Ipaddr6Mask
import Tun2SocksWinRT.SocksUdpGwClient
import Tun2SocksWinRT.DeviceIo
import Tun2SocksWinRT.UdpgwKeepalive
import Tun2SocksWinRT.BAddrText
import Tun2SocksWinRT.UdpgwStream
