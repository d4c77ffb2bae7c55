import BismarkPassive.Output
import BismarkPassive.Text.Numerals

namespace bismark_passive

open text

/-! The characters that each `gzprintf` call prints -/

/-- `"UNANONYMIZED"` -/
def UNANONYMIZED : cstring := [85, 78, 65, 78, 79, 78, 89, 77, 73, 90, 69, 68]

def unsigned (value : Nat) : cstring := numeral 10 value

/-- `%PRIx64` -/
def hexadecimal (value : UInt64) : cstring := numeral 16 value.toNat

def flag (value : Bool) : cstring := unsigned value.toNat

/-- The fields of a line; `start_time_microseconds` is printed as unsigned. -/
def Line.fields : Line → List cstring
  | .version file_format_version build_id => [unsigned file_format_version ++ [newline] ++ build_id]
  | .session bismark_id start_timestamp_microseconds sequence_number current_timestamp =>
    [bismark_id, decimal start_timestamp_microseconds.toInt, decimal sequence_number, decimal current_timestamp]
  | .pcap_statistics ps_recv ps_drop ps_ifdrop =>
    [unsigned ps_recv.toNat, unsigned ps_drop.toNat, unsigned ps_ifdrop.toNat]
  | .blank => []
  | .domain name => [name]
  | .seed seed_hex_digest => [seed_hex_digest ++ [newline]]
  | .unanonymized => [UNANONYMIZED ++ [newline]]
  | .packets start_time_microseconds discarded_by_overflow =>
    [unsigned start_time_microseconds.toUInt64.toNat, unsigned discarded_by_overflow.toNat]
  | .packet timestamp size flow_id => [decimal timestamp.toInt, unsigned size.toNat, decimal flow_id]
  | .flows base_timestamp_seconds num_elements num_expired_flows num_dropped_flows =>
    [decimal base_timestamp_seconds, unsigned num_elements.toNat, decimal num_expired_flows,
      decimal num_dropped_flows]
  | .flow id source_anonymized source_digest destination_anonymized destination_digest transport_protocol
      port_source port_destination =>
    [unsigned id, flag source_anonymized, hexadecimal source_digest, flag destination_anonymized,
      hexadecimal destination_digest, unsigned transport_protocol.toNat, unsigned port_source.toNat,
      unsigned port_destination.toNat]
  | .dns num_dropped_a_entries num_dropped_cname_entries =>
    [decimal num_dropped_a_entries, decimal num_dropped_cname_entries]
  | .a packet_id mac_id domain_anonymized domain_string address_digest ttl =>
    [unsigned packet_id.toNat, unsigned mac_id.toNat, flag domain_anonymized, domain_string,
      hexadecimal address_digest, decimal ttl.toInt]
  | .cname packet_id mac_id domain_anonymized domain_string cname_anonymized cname_string ttl =>
    [unsigned packet_id.toNat, unsigned mac_id.toNat, flag domain_anonymized, domain_string, flag cname_anonymized,
      cname_string,
      decimal ttl.toInt]
  | .addresses first size => [decimal first, unsigned size]
  | .address mac ip => [mac, hexadecimal ip]
  | .drop size count => [unsigned size, unsigned count.toNat]
  | .urls num_dropped_url_entries => [decimal num_dropped_url_entries, []]
  | .url flow_id digest => [unsigned flow_id.toNat, unsigned 0, digest, []]

def Line.text (line : Line) : cstring := text.line line.fields

/-- What has been written to the file so far. -/
def gzFile.text (handle : gzFile) : cstring := handle.written.flatMap Line.text

theorem gzFile.append_text (handle : gzFile) (lines : List Line) :
    (handle.append lines).text = handle.text ++ lines.flatMap Line.text := by
  rw [gzFile.text, gzFile.append_written, List.flatMap_append]
  rfl

theorem hexadecimal_injective : Function.Injective hexadecimal := fun _ _ heq =>
  UInt64.toNat_inj.mp (numeral_injective (by decide) (by decide) heq)

end bismark_passive
