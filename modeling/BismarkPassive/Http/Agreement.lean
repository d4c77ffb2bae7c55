import BismarkPassive.Http.Parser
import BismarkPassive.PacketSeries.Agreement

namespace bismark_passive.http

open containers

/-! Tables that agree except for the flow ids, and under `same` for these too -/

variable {same : Prop}

def http_url_entry.without_flow (entry : http_url_entry) : http_url_entry := { entry with flow_id := 0 }

structure http_table_t.Agrees (same : Prop) (table other : http_table_t) : Prop where
  urls : other.entries.items.map http_url_entry.without_flow = table.entries.items.map http_url_entry.without_flow
  num_dropped : other.num_dropped_url_entries = table.num_dropped_url_entries
  eq_of_same : same → other = table

theorem http_table_init_agrees : http_table_init.Agrees same http_table_init := ⟨rfl, rfl, fun _ => rfl⟩

/-- Tables that agree take and refuse the same URLs. -/
theorem http_table_add_url_agrees {table other : http_table_t} (h : table.Agrees same other)
    {flow_id flow_id' : UInt16} (hflow : same → flow_id' = flow_id) (url : cstring) :
    (http_table_add_url table ⟨flow_id, url⟩).2.Agrees same (http_table_add_url other ⟨flow_id', url⟩).2 := by
  have hlength : other.entries.items.length = table.entries.items.length := by
    have hlength := congrArg List.length h.urls
    rwa [List.length_map, List.length_map] at hlength
  unfold http_table_add_url
  cases hpush : table.entries.push ⟨flow_id, url⟩ with
  | none =>
    have hpush' : other.entries.push ⟨flow_id', url⟩ = none :=
      Bounded.push_eq_none_iff.mpr (hlength.trans (Bounded.push_eq_none_iff.mp hpush))
    rw [hpush']
    exact ⟨h.urls, congrArg (· + 1) h.num_dropped, fun hsame => by rw [h.eq_of_same hsame]⟩
  | some entries =>
    obtain ⟨hroom, hitems⟩ := Bounded.push_eq_some_iff.mp hpush
    have hroom' : other.entries.items.length < HTTP_TABLE_URL_ENTRIES := hlength ▸ hroom
    obtain ⟨entries', hpush'⟩ : ∃ entries', other.entries.push ⟨flow_id', url⟩ = some entries' := ⟨_, dif_pos hroom'⟩
    obtain ⟨-, hitems'⟩ := Bounded.push_eq_some_iff.mp hpush'
    rw [hpush']
    refine ⟨?_, h.num_dropped, fun hsame => ?_⟩
    · simp only [hitems, hitems', List.map_append, h.urls, List.map_singleton, http_url_entry.without_flow]
    · have hother := h.eq_of_same hsame
      rw [hother, hflow hsame, hpush, Option.some.injEq] at hpush'
      simp only [hother, hpush']

/-- Up to flow ids, they print the same. -/
theorem url_lines_agree {table other : http_table_t} (h : table.Agrees same other) (heap : heap_t)
    {lines lines' : List Line} (hlines : table.entries.items.mapIdx (url_line heap) = lines.map some)
    (hlines' : other.entries.items.mapIdx (url_line heap) = lines'.map some) :
    lines'.map Line.without_flow_id = lines.map Line.without_flow_id := by
  have hwithout (idx : Nat) (entry : http_url_entry) : (url_line heap idx entry).map Line.without_flow_id =
      url_line heap idx entry.without_flow := by
    simp only [url_line, url_bytes, http_url_entry.without_flow, Option.bind_eq_bind, Option.map_bind]
    rfl
  have hall {table : http_table_t} {lines : List Line}
      (hlines : table.entries.items.mapIdx (url_line heap) = lines.map some) :
      (lines.map Line.without_flow_id).map some =
        (table.entries.items.map http_url_entry.without_flow).mapIdx (url_line heap) := by
    apply List.ext_getElem?
    intro idx
    have hidx := congrArg (fun lines => lines[idx]?.map (Option.map Line.without_flow_id)) hlines
    simp only [List.getElem?_mapIdx, List.getElem?_map, Option.map_map] at hidx ⊢
    refine Eq.trans hidx.symm (congrArg (fun line => Option.map line table.entries.items[idx]?) ?_)
    funext entry
    exact hwithout idx entry
  apply (List.map_inj_right fun _ _ => Option.some.inj).mp
  rw [hall hlines, hall hlines', h.urls]

/-- The URL that the parser takes from a request, if it takes one. -/
def requested_url (bytes : List UInt8) : Option cstring := do
  let (method, url) ← tokenize (bytes.takeWhile (· != 0))
  if strcasecmp_eq method [71, 69, 84] then some (if MAX_URL < url.length then url.take (MAX_URL - 1) else url)
  else none

variable {s s' : Session}

/-- In a build that anonymises, a payload adds the URL that it requests. -/
theorem process_http_packet_eq (hanonymized : s.target.disable_anonymization = false) {len : Int} (hlen : 0 < len)
    (bytes : List UInt8) (table : http_table_t) (flow_id : UInt16) :
    process_http_packet s bytes len table flow_id =
      match requested_url bytes with
      | none => some (-1, table)
      | some url => add_url s table flow_id url := by
  rw [process_http_packet, if_neg (not_le.mpr hlen), requested_url]
  cases tokenize (bytes.takeWhile (· != 0)) with
  | none => rfl
  | some tokens =>
    obtain ⟨method, url⟩ := tokens
    simp only [Option.bind_eq_bind, Option.bind_some, hanonymized, Bool.false_eq_true, if_false]
    split
    · simp only [add_url, Option.bind_eq_bind, Option.bind_assoc, Option.pure_def, Option.bind_some]
    · rfl

/-- Requests with the same bytes add the same URL. -/
theorem process_http_packet_agrees (hanonymized : s.target.disable_anonymization = false)
    (htarget : s'.target = s.target) {bytes : List UInt8} {len : Int} (hlen : 0 < len)
    (hurl : ∀ url, requested_url bytes = some url → SameDigest s s' url) {table other : http_table_t}
    (h : table.Agrees same other) {flow_id flow_id' : UInt16} (hflow : same → flow_id' = flow_id)
    {result result' : Int × http_table_t} (hfirst : process_http_packet s bytes len table flow_id = some result)
    (hsecond : process_http_packet s' bytes len other flow_id' = some result') :
    result.2.Agrees same result'.2 := by
  rw [process_http_packet_eq hanonymized hlen] at hfirst
  rw [process_http_packet_eq (by rw [htarget, hanonymized]) hlen] at hsecond
  cases hrequested : requested_url bytes with
  | none =>
    simp only [hrequested, Option.some.injEq] at hfirst hsecond
    rw [← hfirst, ← hsecond]
    exact h
  | some url =>
    simp only [hrequested, add_url, anonymize_url, Option.bind_eq_bind, Option.bind_eq_some_iff,
      Option.pure_def, Option.some.injEq] at hfirst hsecond
    obtain ⟨digest, hdigest, rfl⟩ := hfirst
    obtain ⟨digest', hdigest', rfl⟩ := hsecond
    rw [(hurl url hrequested).symm.trans hdigest', Option.some.injEq] at hdigest
    rw [hdigest]
    exact http_table_add_url_agrees h hflow _

end bismark_passive.http
