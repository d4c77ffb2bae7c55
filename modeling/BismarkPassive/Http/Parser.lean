import BismarkPassive.Http.Table

namespace bismark_passive.http

/-- `strtok(text, " ")` on a string: the next token and what follows it. -/
def strtok (text : cstring) : Option (cstring × cstring) :=
  match text.dropWhile (· == 32) with
  | [] => none
  | byte :: rest =>
    let token := (byte :: rest).takeWhile (· != 32)
    some (token, (byte :: rest).drop (token.length + 1))

/-- The first two of the at most three tokens, if `tokenize` returns 3. It
counts a missing third token. -/
def tokenize (text : cstring) : Option (cstring × cstring) := do
  let (first, rest) ← strtok text
  let (second, _) ← strtok rest
  pure (first, second)

/-- `tolower` in the C locale. -/
def tolower (byte : UInt8) : UInt8 := if 65 ≤ byte ∧ byte ≤ 90 then byte + 32 else byte

def strcasecmp_eq (first second : cstring) : Bool := first.map tolower == second.map tolower

/-- `strdup` of a digest stops at its first zero byte. -/
def strdup_digest (digest : digest_t) : cstring := digest.toList.takeWhile (· != 0)

def add_url (s : Session) (table : http_table_t) (flow_id : UInt16) (url : cstring) : Option (Int × http_table_t) := do
  let url_digest ← anonymize_url s url
  pure (0, (http_table_add_url table { flow_id := flow_id, url := strdup_digest url_digest }).2)

/-- `bytes` is what lies in memory from the payload on; the parser takes it for
a string and does not look at `len` again. `none` is a failing assertion. -/
def process_http_packet (s : Session) (bytes : List UInt8) (len : Int) (table : http_table_t)
    (flow_id : UInt16) : Option (Int × http_table_t) :=
  if len ≤ 0 then some (-1, table)
  else
    match tokenize (bytes.takeWhile (· != 0)) with
    | none => some (-1, table)
    | some (method, url) =>
      if strcasecmp_eq method [71, 69, 84] then do
        let url := if MAX_URL < url.length then url.take (MAX_URL - 1) else url
        if s.target.disable_anonymization then some (0, table)
        else do
          let (_, table) ← add_url s table flow_id url
          pure (0, table)
      else some (-1, table)

end bismark_passive.http
