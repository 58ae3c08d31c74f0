import IcnPrototype.Lib.Bytes

set_option autoImplicit false

/-! # Byte order on the hosts

All programs of the prototype run on little-endian x86-64 hosts, where `htonl` and `ntohl`
(DPDK: `rte_cpu_to_be_32`) reverse the bytes of a word and `htons` and `ntohs`
(`rte_cpu_to_be_16`) those of a half word.
-/

namespace Host

/-- `htonl`, `rte_cpu_to_be_32` -/
def htonl (x : UInt32) : UInt32 := Bytes.bswap32 x

/-- `ntohl` -/
def ntohl (x : UInt32) : UInt32 := Bytes.bswap32 x

/-- `htons`, `rte_cpu_to_be_16` -/
def htons (x : UInt16) : UInt16 := Bytes.bswap16 x

/-- `ntohs` -/
def ntohs (x : UInt16) : UInt16 := Bytes.bswap16 x

@[simp] theorem ntohl_htonl (x : UInt32) : ntohl (htonl x) = x := Bytes.bswap32_bswap32 x

@[simp] theorem htonl_ntohl (x : UInt32) : htonl (ntohl x) = x := Bytes.bswap32_bswap32 x

@[simp] theorem ntohs_htons (x : UInt16) : ntohs (htons x) = x := Bytes.bswap16_bswap16 x

end Host
