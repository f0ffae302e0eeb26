import LibN3.Error

/-! get_sockopt_size of syscalls.cpp. Options, and the sizes of what they hold, are those of
64-bit Linux; the kernel headers let tcp_info grow. -/
namespace LibN3
open Error

def SOL_SOCKET : Int32 := 1
def IPPROTO_IP : Int32 := 0
def IPPROTO_IPV6 : Int32 := 41
def IPPROTO_RAW : Int32 := 255
def IPPROTO_TCP : Int32 := 6
def IPPROTO_UDP : Int32 := 17

def SO_ACCEPTCONN : Int32 := 30
def SO_ATTACH_FILTER : Int32 := 26
def SO_ATTACH_REUSEPORT_CBPF : Int32 := 51
def SO_ATTACH_BPF : Int32 := 50
def SO_ATTACH_REUSEPORT_EBPF : Int32 := 52
def SO_BINDTODEVICE : Int32 := 25
def SO_BROADCAST : Int32 := 6
def SO_DEBUG : Int32 := 1
def SO_DETACH_FILTER : Int32 := 27
def SO_DOMAIN : Int32 := 39
def SO_ERROR : Int32 := 4
def SO_DONTROUTE : Int32 := 5
def SO_INCOMING_CPU : Int32 := 49
def SO_INCOMING_NAPI_ID : Int32 := 56
def SO_KEEPALIVE : Int32 := 9
def SO_LINGER : Int32 := 13
def SO_LOCK_FILTER : Int32 := 44
def SO_MARK : Int32 := 36
def SO_OOBINLINE : Int32 := 10
def SO_PASSCRED : Int32 := 16
def SO_PEEK_OFF : Int32 := 42
def SO_PEERCRED : Int32 := 17
def SO_PEERSEC : Int32 := 31
def SO_PRIORITY : Int32 := 12
def SO_PROTOCOL : Int32 := 38
def SO_RCVBUFFORCE : Int32 := 33
def SO_RCVBUF : Int32 := 8
def SO_RCVLOWAT : Int32 := 18
def SO_SNDLOWAT : Int32 := 19
def SO_RCVTIMEO : Int32 := 20
def SO_SNDTIMEO : Int32 := 21
def SO_REUSEADDR : Int32 := 2
def SO_REUSEPORT : Int32 := 15
def SO_RXQ_OVFL : Int32 := 40
def SO_SNDBUFFORCE : Int32 := 32
def SO_SNDBUF : Int32 := 7
def SO_TIMESTAMP : Int32 := 29
def SO_TIMESTAMPNS : Int32 := 35
def SO_TYPE : Int32 := 3
def SO_BUSY_POLL : Int32 := 46
def IP_ADD_MEMBERSHIP : Int32 := 35
def IP_BLOCK_SOURCE : Int32 := 38
def IP_DROP_MEMBERSHIP : Int32 := 36
def IP_DROP_SOURCE_MEMBERSHIP : Int32 := 40
def IP_ADD_SOURCE_MEMBERSHIP : Int32 := 39
def IP_BIND_ADDRESS_NO_PORT : Int32 := 24
def IP_FREEBIND : Int32 := 15
def IP_HDRINCL : Int32 := 3
def IP_LOCAL_PORT_RANGE : Int32 := 51
def IP_MSFILTER : Int32 := 41
def IP_MTU : Int32 := 14
def IP_MTU_DISCOVER : Int32 := 10
def IP_MULTICAST_ALL : Int32 := 49
def IP_MULTICAST_IF : Int32 := 32
def IP_MULTICAST_LOOP : Int32 := 34
def IP_MULTICAST_TTL : Int32 := 33
def IP_NODEFRAG : Int32 := 22
def IP_OPTIONS : Int32 := 4
def IP_PKTINFO : Int32 := 8
def IP_RECVERR : Int32 := 11
def IP_RECVOPTS : Int32 := 6
def IP_RECVORIGDSTADDR : Int32 := 20
def IP_RECVTOS : Int32 := 13
def IP_RECVTTL : Int32 := 12
def IP_RETOPTS : Int32 := 7
def IP_ROUTER_ALERT : Int32 := 5
def IP_TOS : Int32 := 1
def IP_TRANSPARENT : Int32 := 19
def IP_TTL : Int32 := 2
def IP_UNBLOCK_SOURCE : Int32 := 37
def IPV6_ADDRFORM : Int32 := 1
def IPV6_ADD_MEMBERSHIP : Int32 := 20
def IPV6_DROP_MEMBERSHIP : Int32 := 21
def IPV6_MTU : Int32 := 24
def IPV6_MTU_DISCOVER : Int32 := 23
def IPV6_MULTICAST_HOPS : Int32 := 18
def IPV6_MULTICAST_IF : Int32 := 17
def IPV6_MULTICAST_LOOP : Int32 := 19
def IPV6_RECVPKTINFO : Int32 := 49
def IPV6_RTHDR : Int32 := 57
def IPV6_AUTHHDR : Int32 := 10
def IPV6_DSTOPTS : Int32 := 59
def IPV6_HOPOPTS : Int32 := 54
def IPV6_HOPLIMIT : Int32 := 52
def IPV6_RECVERR : Int32 := 25
def IPV6_ROUTER_ALERT : Int32 := 22
def IPV6_UNICAST_HOPS : Int32 := 16
def IPV6_V6ONLY : Int32 := 26
def ICMP_FILTER : Int32 := 1
def TCP_CONGESTION : Int32 := 13
def TCP_INFO : Int32 := 11
def TCP_USER_TIMEOUT : Int32 := 18
def TCP_CORK : Int32 := 3
def TCP_DEFER_ACCEPT : Int32 := 9
def TCP_KEEPCNT : Int32 := 6
def TCP_KEEPIDLE : Int32 := 4
def TCP_KEEPINTVL : Int32 := 5
def TCP_LINGER2 : Int32 := 8
def TCP_MAXSEG : Int32 := 2
def TCP_NODELAY : Int32 := 1
def TCP_QUICKACK : Int32 := 12
def TCP_SYNCNT : Int32 := 7
def TCP_WINDOW_CLAMP : Int32 := 10
def TCP_FASTOPEN : Int32 := 23
def TCP_FASTOPEN_CONNECT : Int32 := 30
def UDP_CORK : Int32 := 1
def UDP_SEGMENT : Int32 := 103
def UDP_GRO : Int32 := 104

def sizeofInt : SizeT := 4
def sizeofPointer : SizeT := 8
def sizeofSockFprog : SizeT := 16
def IFNAMSIZ : SizeT := 16
def sizeofLinger : SizeT := 8
def sizeofUcred : SizeT := 12
def sizeofTimeval : SizeT := 16
def sizeofIpMreqn : SizeT := 12
def sizeofIpMreqSource : SizeT := 12
def sizeofIpMsfilter : SizeT := 20
def sizeofInPktinfo : SizeT := 12
def sizeofIpv6Mreq : SizeT := 20
def sizeofTcpInfo : SizeT := 248

def socketSizes : List (Int32 × SizeT) :=
  [(SO_ACCEPTCONN, sizeofInt), (SO_ATTACH_FILTER, sizeofSockFprog),
    (SO_ATTACH_REUSEPORT_CBPF, sizeofSockFprog), (SO_ATTACH_BPF, sizeofInt),
    (SO_ATTACH_REUSEPORT_EBPF, sizeofInt), (SO_BINDTODEVICE, IFNAMSIZ),
    (SO_BROADCAST, sizeofInt), (SO_DEBUG, sizeofInt), (SO_DETACH_FILTER, sizeofInt),
    (SO_DOMAIN, sizeofInt), (SO_ERROR, sizeofInt), (SO_DONTROUTE, sizeofInt),
    (SO_INCOMING_CPU, sizeofInt), (SO_INCOMING_NAPI_ID, sizeofInt), (SO_KEEPALIVE, sizeofInt),
    (SO_LINGER, sizeofLinger), (SO_LOCK_FILTER, sizeofInt), (SO_MARK, sizeofInt),
    (SO_OOBINLINE, sizeofInt), (SO_PASSCRED, sizeofInt), (SO_PEEK_OFF, sizeofInt),
    (SO_PEERCRED, sizeofUcred), (SO_PEERSEC, sizeofInt), (SO_PRIORITY, sizeofInt),
    (SO_PROTOCOL, sizeofInt), (SO_RCVBUFFORCE, sizeofInt), (SO_RCVBUF, sizeofInt),
    (SO_RCVLOWAT, sizeofInt), (SO_SNDLOWAT, sizeofInt), (SO_RCVTIMEO, sizeofTimeval),
    (SO_SNDTIMEO, sizeofTimeval), (SO_REUSEADDR, sizeofInt), (SO_REUSEPORT, sizeofInt),
    (SO_RXQ_OVFL, sizeofInt), (SO_SNDBUFFORCE, sizeofInt), (SO_SNDBUF, sizeofInt),
    (SO_TIMESTAMP, sizeofInt), (SO_TIMESTAMPNS, sizeofInt), (SO_TYPE, sizeofInt),
    (SO_BUSY_POLL, sizeofInt)]

/- IP_PASSSEC and SO_PEERSEC have cases here, which are no different from the default. -/
def ipSizes : List (Int32 × SizeT) :=
  [(IP_ADD_MEMBERSHIP, sizeofIpMreqn), (IP_BLOCK_SOURCE, sizeofIpMreqn),
    (IP_DROP_MEMBERSHIP, sizeofIpMreqn), (IP_DROP_SOURCE_MEMBERSHIP, sizeofIpMreqn),
    (IP_ADD_SOURCE_MEMBERSHIP, sizeofIpMreqSource), (IP_BIND_ADDRESS_NO_PORT, sizeofInt),
    (IP_FREEBIND, sizeofInt), (IP_HDRINCL, sizeofInt), (IP_LOCAL_PORT_RANGE, sizeofInt),
    (IP_MSFILTER, sizeofIpMsfilter), (IP_MTU, sizeofInt), (IP_MTU_DISCOVER, sizeofInt),
    (IP_MULTICAST_ALL, sizeofInt), (IP_MULTICAST_IF, sizeofIpMreqn),
    (IP_MULTICAST_LOOP, sizeofInt), (IP_MULTICAST_TTL, sizeofInt), (IP_NODEFRAG, sizeofInt),
    (IP_OPTIONS, 40), (IP_PKTINFO, sizeofInPktinfo), (IP_RECVERR, sizeofInt),
    (IP_RECVOPTS, sizeofInt), (IP_RECVORIGDSTADDR, sizeofInt), (IP_RECVTOS, sizeofInt),
    (IP_RECVTTL, sizeofInt), (IP_RETOPTS, sizeofInt), (IP_ROUTER_ALERT, sizeofInt), (IP_TOS, 1),
    (IP_TRANSPARENT, sizeofInt), (IP_TTL, sizeofInt), (IP_UNBLOCK_SOURCE, sizeofIpMreqSource)]

def ipv6Sizes : List (Int32 × SizeT) :=
  [(IPV6_ADDRFORM, sizeofPointer), (IPV6_ADD_MEMBERSHIP, sizeofIpv6Mreq),
    (IPV6_DROP_MEMBERSHIP, sizeofIpv6Mreq), (IPV6_MTU, sizeofPointer),
    (IPV6_MTU_DISCOVER, sizeofInt), (IPV6_MULTICAST_HOPS, sizeofPointer),
    (IPV6_MULTICAST_IF, sizeofPointer), (IPV6_MULTICAST_LOOP, sizeofPointer),
    (IPV6_RECVPKTINFO, sizeofPointer), (IPV6_RTHDR, sizeofPointer),
    (IPV6_AUTHHDR, sizeofPointer), (IPV6_DSTOPTS, sizeofPointer), (IPV6_HOPOPTS, sizeofPointer),
    (IPV6_HOPLIMIT, sizeofPointer), (IPV6_RECVERR, sizeofPointer),
    (IPV6_ROUTER_ALERT, sizeofPointer), (IPV6_UNICAST_HOPS, sizeofPointer),
    (IPV6_V6ONLY, sizeofPointer)]

def rawSizes : List (Int32 × SizeT) :=
  [(ICMP_FILTER, 1)]

def tcpSizes : List (Int32 × SizeT) :=
  [(TCP_CONGESTION, 5), (TCP_INFO, sizeofTcpInfo), (TCP_USER_TIMEOUT, sizeofInt),
    (TCP_CORK, sizeofInt), (TCP_DEFER_ACCEPT, sizeofInt), (TCP_KEEPCNT, sizeofInt),
    (TCP_KEEPIDLE, sizeofInt), (TCP_KEEPINTVL, sizeofInt), (TCP_LINGER2, sizeofInt),
    (TCP_MAXSEG, sizeofInt), (TCP_NODELAY, sizeofInt), (TCP_QUICKACK, sizeofInt),
    (TCP_SYNCNT, sizeofInt), (TCP_WINDOW_CLAMP, sizeofInt), (TCP_FASTOPEN, sizeofInt),
    (TCP_FASTOPEN_CONNECT, sizeofInt)]

def udpSizes : List (Int32 × SizeT) :=
  [(UDP_CORK, sizeofInt), (UDP_SEGMENT, sizeofInt), (UDP_GRO, sizeofInt)]

def sockoptSizes : List (Int32 × List (Int32 × SizeT)) :=
  [(SOL_SOCKET, socketSizes), (IPPROTO_IP, ipSizes), (IPPROTO_IPV6, ipv6Sizes),
    (IPPROTO_RAW, rawSizes), (IPPROTO_TCP, tcpSizes), (IPPROTO_UDP, udpSizes)]

def getSockoptSize (level optname : Int32) : Except Halt SizeT := do
  let sizes ← select sockoptSizes level
  select sizes optname

/- No case has another's label, so it does not matter which of them comes first. -/
theorem sockopt_labels_apart : (sockoptSizes.map Prod.fst).Nodup ∧
    ∀ level ∈ sockoptSizes, (level.2.map Prod.fst).Nodup := by
  decide

/- An option that the switches have a case for. -/
def Supported (level optname : Int32) : Prop := ∃ size, getSockoptSize level optname = .ok size

theorem getSockoptSize_other {level optname : Int32} (other : ¬ Supported level optname) :
    getSockoptSize level optname = .error .unreachable := by
  cases level_case : select sockoptSizes level with
  | error halt =>
    rw [getSockoptSize, level_case, select_error level_case]
    rfl
  | ok sizes =>
    have inner : getSockoptSize level optname = select sizes optname := by
      rw [getSockoptSize, level_case]
      rfl
    cases option_case : select sizes optname with
    | ok size => exact absurd ⟨size, inner.trans option_case⟩ other
    | error halt => rw [inner, option_case, select_error option_case]

end LibN3
