import BismarkPassive.Main.WriteUpdate
import BismarkPassive.Printed
import BismarkPassive.Text.Rows

namespace bismark_passive.main

open text

/-! A reader of the update files that the README describes -/

theorem one_lt_ten : 1 < 10 := by decide

theorem ten_le_sixteen : 10 ≤ 16 := by decide

theorem one_lt_sixteen : 1 < 16 := by decide

theorem flag_eq_one (value : Bool) : (value.toNat == 1) = value := by
  cases value <;> rfl

theorem microseconds_of_printed (value : Int64) : (UInt64.ofNat value.toUInt64.toNat).toInt64 = value := by
  rw [UInt64.ofNat_toNat, Int64.toInt64_toUInt64]

theorem empty_word : Unspaced [] := ⟨List.not_mem_nil, List.not_mem_nil⟩

theorem zero_word : Unspaced (unsigned 0) := (plain_numeral one_lt_ten ten_le_sixteen 0).word

def unsigned_field : Column Nat := numeral_field 10 one_lt_ten ten_le_sixteen

def uint8_field : Column UInt8 := unsigned_field.as UInt8.toNat UInt8.ofNat @UInt8.ofNat_toNat

def uint16_field : Column UInt16 := unsigned_field.as UInt16.toNat UInt16.ofNat @UInt16.ofNat_toNat

def uint32_field : Column UInt32 := unsigned_field.as UInt32.toNat UInt32.ofNat @UInt32.ofNat_toNat

def int32_field : Column Int32 := decimal_field.as Int32.toInt Int32.ofInt Int32.ofInt_toInt

def int64_field : Column Int64 := decimal_field.as Int64.toInt Int64.ofInt Int64.ofInt_toInt

/-- A time that is printed as unsigned. -/
def microseconds_field : Column Int64 :=
  unsigned_field.as (fun value => value.toUInt64.toNat) (fun number => (UInt64.ofNat number).toInt64)
    microseconds_of_printed

def digest_field : Column UInt64 :=
  (numeral_field 16 one_lt_sixteen (le_refl 16)).as UInt64.toNat UInt64.ofNat @UInt64.ofNat_toNat

def flag_field : Column Bool := unsigned_field.as Bool.toNat (· == 1) flag_eq_one

/-- A field that can be read. -/
abbrev word_t := { field : cstring // Unspaced field }

/-- A line that can be read. -/
abbrev line_t := { line : cstring // newline ∉ line }

/-! The rows of each section, and the lines that they stand for -/

def version_row : Row Nat := unsigned_field.row

def session_row : Row (word_t × Int64 × Int × Int) :=
  word_field.cons (int64_field.cons (decimal_field.cons decimal_field.row))

def session_line (values : word_t × Int64 × Int × Int) : Line :=
  .session values.1 values.2.1 values.2.2.1 values.2.2.2

def pcap_statistics_row : Row (UInt32 × UInt32 × UInt32) := uint32_field.cons (uint32_field.cons uint32_field.row)

def pcap_statistics_line (values : UInt32 × UInt32 × UInt32) : Line := .pcap_statistics values.1 values.2.1 values.2.2

def domain_line (domain : line_t) : Line := .domain domain

def packets_row : Row (Int64 × UInt32) := microseconds_field.cons uint32_field.row

def packets_line (values : Int64 × UInt32) : Line := .packets values.1 values.2

def packet_row : Row (Int32 × UInt16 × Int) := int32_field.cons (uint16_field.cons decimal_field.row)

def packet_data_line (values : Int32 × UInt16 × Int) : Line := .packet values.1 values.2.1 values.2.2

def flows_row : Row (Int × UInt32 × Int × Int) :=
  decimal_field.cons (uint32_field.cons (decimal_field.cons decimal_field.row))

def flows_line (values : Int × UInt32 × Int × Int) : Line := .flows values.1 values.2.1 values.2.2.1 values.2.2.2

def flow_row : Row (Nat × Bool × UInt64 × Bool × UInt64 × UInt8 × UInt16 × UInt16) :=
  unsigned_field.cons (flag_field.cons (digest_field.cons (flag_field.cons (digest_field.cons (uint8_field.cons
    (uint16_field.cons uint16_field.row))))))

def flow_record_line : Nat × Bool × UInt64 × Bool × UInt64 × UInt8 × UInt16 × UInt16 → Line
  | (id, source_anonymized, source_digest, destination_anonymized, destination_digest, transport_protocol, port_source,
      port_destination) =>
    .flow id source_anonymized source_digest destination_anonymized destination_digest transport_protocol port_source
      port_destination

def dns_row : Row (Int × Int) := decimal_field.cons decimal_field.row

def dns_line (values : Int × Int) : Line := .dns values.1 values.2

def a_row : Row (UInt16 × UInt8 × Bool × word_t × UInt64 × Int32) :=
  uint16_field.cons (uint8_field.cons (flag_field.cons (word_field.cons (digest_field.cons int32_field.row))))

def a_record_line : UInt16 × UInt8 × Bool × word_t × UInt64 × Int32 → Line
  | (packet_id, mac_id, domain_anonymized, domain, address_digest, ttl) =>
    .a packet_id mac_id domain_anonymized domain address_digest ttl

def cname_row : Row (UInt16 × UInt8 × Bool × word_t × Bool × word_t × Int32) :=
  uint16_field.cons (uint8_field.cons (flag_field.cons (word_field.cons (flag_field.cons (word_field.cons
    int32_field.row)))))

def cname_record_line : UInt16 × UInt8 × Bool × word_t × Bool × word_t × Int32 → Line
  | (packet_id, mac_id, domain_anonymized, domain, cname_anonymized, cname, ttl) =>
    .cname packet_id mac_id domain_anonymized domain cname_anonymized cname ttl

def addresses_row : Row (Int × Nat) := decimal_field.cons unsigned_field.row

def addresses_line (values : Int × Nat) : Line := .addresses values.1 values.2

def address_row : Row (word_t × UInt64) := word_field.cons digest_field.row

def mapping_line (values : word_t × UInt64) : Line := .address values.1 values.2

def drop_row : Row (Nat × UInt32) := unsigned_field.cons uint32_field.row

def drop_line (values : Nat × UInt32) : Line := .drop values.1 values.2

/-- The line ends with a space. -/
def urls_row : Row (Int × Unit) := decimal_field.cons (constant_field [] empty_word).row

def urls_line (values : Int × Unit) : Line := .urls values.1

def url_row : Row (UInt16 × Unit × word_t × Unit) :=
  uint16_field.cons ((constant_field (unsigned 0) zero_word).cons (word_field.cons
    (constant_field [] empty_word).row))

def url_record_line (values : UInt16 × Unit × word_t × Unit) : Line := .url values.1 values.2.2.1

/-! The sections -/

/-- Lines of one kind and the empty line behind them. -/
def read_lines {α : Type} (format : Format α) (line_of : α → Line) : LineReader (List Line) :=
  format.paragraph >>= fun values => pure (values.map line_of ++ [.blank])

/-- A line that opens a section. -/
def read_opening {α : Type} (format : Format α) (line_of : α → Line) (rest : LineReader (List Line)) :
    LineReader (List Line) :=
  format.next >>= fun value => rest >>= fun lines => pure (line_of value :: lines)

def read_header : LineReader (List Line) :=
  version_row.format.next >>= fun version => line_format.next >>= fun build_id =>
    read_opening session_row.format session_line (read_lines pcap_statistics_row.format pcap_statistics_line) >>=
      fun lines => pure (.version version build_id :: lines)

def read_whitelist : LineReader (List Line) := read_lines line_format domain_line

def anonymization_line (line : line_t) : Line := if line.val = UNANONYMIZED then .unanonymized else .seed line

def read_anonymization : LineReader (List Line) :=
  line_format.next >>= fun line => line_format.paragraph >>= fun more =>
    if more.isEmpty then pure [anonymization_line line] else failure

def read_packets : LineReader (List Line) :=
  read_opening packets_row.format packets_line (read_lines packet_row.format packet_data_line)

def read_flows : LineReader (List Line) :=
  read_opening flows_row.format flows_line (read_lines flow_row.format flow_record_line)

def read_dns : LineReader (List Line) :=
  read_opening dns_row.format dns_line
    (read_lines a_row.format a_record_line >>= fun a_lines => read_lines cname_row.format cname_record_line >>=
      fun cname_lines => pure (a_lines ++ cname_lines))

def read_addresses : LineReader (List Line) :=
  read_opening addresses_row.format addresses_line (read_lines address_row.format mapping_line)

def read_drops : LineReader (List Line) := read_lines drop_row.format drop_line

/-- The section is there in some builds only. -/
def read_urls : LineReader (List Line) := fun lines =>
  if lines = [[]] then some ([], lines)
  else read_opening urls_row.format urls_line (read_lines url_row.format url_record_line) lines

def read_sections : LineReader update_t :=
  read_header >>= fun header => read_whitelist >>= fun whitelist => read_anonymization >>= fun anonymization =>
    read_packets >>= fun packets => read_flows >>= fun flows => read_dns >>= fun dns =>
      read_addresses >>= fun addresses => read_drops >>= fun drops => read_urls >>= fun urls =>
        pure
          { header := header
            whitelist := whitelist
            anonymization := anonymization
            packets := packets
            flows := flows
            dns := dns
            addresses := addresses
            drops := drops
            urls := urls }

/-- The update that a file describes; nothing may follow its last line. -/
def read_update (contents : cstring) : Option update_t :=
  match read_sections (contents.splitOn newline) with
  | some (update, [[]]) => some update
  | _ => none

/-! The files -/

def update_t.lines (update : update_t) : List Line :=
  update.header ++ update.whitelist ++ update.anonymization ++ update.packets ++ update.flows ++ update.dns ++
    update.addresses ++ update.drops ++ update.urls

/-- The characters of the file. -/
def update_t.text (update : update_t) : cstring := update.lines.flatMap Line.text

end bismark_passive.main
