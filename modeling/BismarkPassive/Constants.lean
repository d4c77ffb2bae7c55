import Mathlib.Algebra.GroupWithZero.Nat
import Mathlib.Data.Rat.Defs

namespace bismark_passive

/-! The macros of `constants.h` that the modelled functions use. -/

def FILE_FORMAT_VERSION : Nat := 5
def FREQUENT_FILE_FORMAT_VERSION : Nat := 3

def PACKET_DATA_BUFFER_ENTRIES : Nat := 65536

/-! `enum reserved_flow_indices` -/

def FLOW_ID_ERROR : Nat := 0
def FLOW_ID_AARP : Nat := 1
def FLOW_ID_ARP : Nat := 2
def FLOW_ID_AT : Nat := 3
def FLOW_ID_IPV6 : Nat := 4
def FLOW_ID_IPX : Nat := 5
def FLOW_ID_REVARP : Nat := 6
def FLOW_ID_FIRST_UNRESERVED : Nat := 7
def FLOW_ID_LAST_UNRESERVED : Nat := 65535

def FLOW_TABLE_ENTRIES : Nat := FLOW_ID_LAST_UNRESERVED - FLOW_ID_FIRST_UNRESERVED + 1

def DNS_TABLE_A_ENTRIES : Nat := 1024
def DNS_TABLE_CNAME_ENTRIES : Nat := 1024
def HTTP_TABLE_URL_ENTRIES : Nat := 1024
def MAX_URL : Nat := 1024
def MAC_TABLE_ENTRIES : Nat := 256

def FLOW_TABLE_EXPIRATION_SECONDS : Int := 30 * 60
def FLOW_TABLE_MAX_UPDATE_OFFSET : Int := 32767
def FLOW_TABLE_MIN_UPDATE_OFFSET : Int := -32768

def DROP_STATISTICS_MAXIMUM_PACKET_SIZE : Nat := 1500

def ANONYMIZATION_SEED_LEN : Nat := 16

def DEVICE_THROUGHPUT_TABLE_SIZE : Nat := 32

def HT_NUM_PROBES : Nat := 3
def HT_C1 : Rat := 1 / 2
def HT_C2 : Rat := 1 / 2

def NUM_MICROS_PER_SECOND : Int := 1000000

def BLOOMSIZE : Nat := 2500000
def NUMHASH : Nat := 2

/-! `net/ethernet.h`, `netinet/in.h`, `arpa/nameser.h` and `anonymization.h` -/

def ETH_ALEN : Nat := 6
def ETHER_HDR_LEN : Nat := 14
def ETHERTYPE_IP : UInt16 := 0x0800
def ETHERTYPE_ARP : UInt16 := 0x0806
def ETHERTYPE_REVARP : UInt16 := 0x8035
def ETHERTYPE_ATALK : UInt16 := 0x809b
def ETHERTYPE_AARP : UInt16 := 0x80f3
def ETHERTYPE_IPX : UInt16 := 0x8137
def ETHERTYPE_IPV6 : UInt16 := 0x86dd
def IPPROTO_TCP : UInt8 := 6
def IPPROTO_UDP : UInt8 := 17
def NS_DEFAULTPORT : UInt16 := 53
def HTTP_PORT : UInt16 := 80
def ANONYMIZATION_DIGEST_LENGTH : Nat := 20

theorem FLOW_TABLE_ENTRIES_eq : FLOW_TABLE_ENTRIES = 65529 := rfl

theorem FLOW_ID_FIRST_UNRESERVED_eq : FLOW_ID_FIRST_UNRESERVED = 7 := rfl

instance : NeZero FLOW_TABLE_ENTRIES := ⟨by decide⟩

instance : NeZero MAC_TABLE_ENTRIES := ⟨by decide⟩

end bismark_passive
