import BismarkPassive.AddressTable.Ring
import BismarkPassive.Machine.Execution
import BismarkPassive.Reference
import BismarkPassive.RingBuffer.Window

namespace bismark_passive.address_table

open ring_buffer machine

/-- The live mappings with their ids, from the oldest one on. -/
def address_table_t.live (table : address_table_t) : List (Int × address_table_entry_t) :=
  (List.range table.length.toNat).map fun idx : Nat =>
    (NORM (table.first + idx), table.entries (mac_slot (NORM (table.first + idx))))

/-- Insertions with the ids of their slots. -/
def numbered (log : List address_table_entry_t) : List (Int × address_table_entry_t) :=
  log.zipIdx.map fun (mapping, index) => ((index : Int) % MAC_TABLE_ENTRIES, mapping)

theorem numbered_snoc (log : List address_table_entry_t) (mapping : address_table_entry_t) :
    numbered (log ++ [mapping]) = numbered log ++ [((log.length : Int) % MAC_TABLE_ENTRIES, mapping)] := by
  simp [numbered, List.zipIdx_append]

theorem length_numbered (log : List address_table_entry_t) : (numbered log).length = log.length := by
  simp [numbered]

/-- The id of an insertion is its position in the log, modulo the size of the ring. -/
theorem numbered_getElem?_eq_some_iff {log : List address_table_entry_t} {index : Nat} {mac_id : Int}
    {mapping : address_table_entry_t} : (numbered log)[index]? = some (mac_id, mapping) ↔
      log[index]? = some mapping ∧ mac_id = (index : Int) % MAC_TABLE_ENTRIES := by
  simp only [numbered, List.getElem?_map, List.getElem?_zipIdx, Option.map_map, Option.map_eq_some_iff,
    Function.comp_apply, Prod.mk.injEq, Nat.zero_add]
  constructor
  · rintro ⟨mapping', hindex, hid, rfl⟩
    exact ⟨hindex, hid.symm⟩
  · rintro ⟨hindex, hid⟩
    exact ⟨mapping, hindex, hid.symm, rfl⟩

theorem numbered_snd (log : List address_table_entry_t) : (numbered log).map Prod.snd = log := by
  apply List.ext_getElem
  · rw [List.length_map, length_numbered]
  · intro i hi hi'
    simp [numbered]

variable {table : address_table_t} {log : List address_table_entry_t} {sent : Nat}

/-- From `first` on there are the mappings of the log that are left, in their order. -/
theorem address_table_t.Logs.live_eq (h : table.Logs log sent) :
    table.live = window MAC_TABLE_ENTRIES (numbered log) := by
  have hlength : table.length.toNat = min log.length MAC_TABLE_ENTRIES := by
    rw [h.length_eq]
    omega
  apply List.ext_getElem?
  intro i
  rw [window, List.getElem?_drop, length_numbered, address_table_t.live, List.getElem?_map]
  by_cases hi : i < table.length.toNat
  · have hid : NORM (table.first + i) = ((log.length - MAC_TABLE_ENTRIES + i : Nat) : Int) % 256 := by
      rw [NORM_eq, h.first_eq]
      omega
    have hrecent := h.recent (show log.length - MAC_TABLE_ENTRIES + i < log.length by omega) (by omega)
    rw [List.getElem?_range hi, Option.map_some, hid, mac_slot_natCast]
    exact (numbered_getElem?_eq_some_iff.mpr ⟨hrecent, rfl⟩).symm
  · rw [List.getElem?_eq_none (by rw [List.length_range]; omega), Option.map_none,
      List.getElem?_eq_none (by rw [length_numbered]; omega)]

/-- A live mapping is a recent insertion. -/
theorem address_table_t.Logs.mem_live_iff (h : table.Logs log sent) {mac_id : Int}
    {mapping : address_table_entry_t} : (mac_id, mapping) ∈ table.live ↔
      ∃ index : Nat, log[index]? = some mapping ∧ log.length ≤ index + MAC_TABLE_ENTRIES ∧
        mac_id = (index : Int) % MAC_TABLE_ENTRIES := by
  simp only [h.live_eq, mem_window_iff, length_numbered, numbered_getElem?_eq_some_iff]
  constructor
  · rintro ⟨index, ⟨hindex, hid⟩, hrecent⟩
    exact ⟨index, hindex, hrecent, hid⟩
  · rintro ⟨index, hindex, hrecent, hid⟩
    exact ⟨index, ⟨hindex, hid⟩, hrecent⟩

/-- The search finds the live mappings, at their ids. -/
theorem address_table_t.Logs.find_eq_some_iff (h : table.Logs log sent)
    (hdistinct : (window MAC_TABLE_ENTRIES log).Nodup) {mapping : address_table_entry_t} {mac_id : Int} :
    table.find mapping = some mac_id ↔ (mac_id, mapping) ∈ table.live := by
  rw [h.mem_live_iff]
  constructor
  · intro hfind
    obtain ⟨index, hindex, -, hrecent, hid⟩ := h.find_some hfind
    exact ⟨index, hindex, hrecent, hid⟩
  · rintro ⟨index, hindex, hrecent, hid⟩
    cases hfind : table.find mapping with
    | none => exact absurd hindex (h.find_none hfind hrecent)
    | some found =>
      obtain ⟨index', hindex', -, hrecent', hid'⟩ := h.find_some hfind
      obtain rfl := window_position_unique hdistinct hindex hindex' hrecent hrecent'
      rw [hid, hid']
      rfl

/-- A lookup is a request of the FIFO cache. -/
theorem address_table_t.Logs.new_mapping_eq_request (h : table.Logs log sent) {mapping : address_table_entry_t}
    (hprivate : is_address_private mapping.ip_address = true) :
    log ++ table.new_mapping mapping = request MAC_TABLE_ENTRIES log mapping := by
  rw [request]
  split
  · rename_i hlive
    obtain ⟨index, hindex, hrecent⟩ := mem_window_iff.mp hlive
    rw [h.new_mapping_recent hindex hrecent, List.append_nil]
  · rename_i hnew
    congr 1
    cases hfind : table.find mapping with
    | none => simp [address_table_t.new_mapping, hprivate, hfind]
    | some mac_id =>
      obtain ⟨index, hindex, -, hrecent, -⟩ := h.find_some hfind
      exact absurd (mem_window_iff.mpr ⟨index, hindex, hrecent⟩) hnew

/-- The calls on the address table. An update may be written to a file whose
calls fail anywhere. -/
inductive address_call where
  | lookup (ip_address : UInt32) (mac : mac_address_t)
  | write_update (handle : gzFile)

inductive address_result where
  | looked_up (mac_id : Int)
  | written (result : Int)

/-- One call; `none` when the process dies in it. -/
def address_call_step (s : Session) (table : address_table_t) :
    address_call → Option (address_table_t × address_result)
  | .lookup ip_address mac =>
    let (mac_id, table') := address_table_lookup table ip_address mac
    some (table', .looked_up mac_id)
  | .write_update handle =>
    let (result, table', _) := address_table_write_update s table handle
    result.map fun result => (table', .written result)

abbrev address_call_run (s : Session) : List (address_call × address_result) → address_table_t → Prop :=
  Execution (address_call_step s) address_table_init

/-- The mapping that a call asks for: none for an address that is not private. -/
def address_call.mapping : address_call → Option address_table_entry_t
  | .lookup ip_address mac => if is_address_private ip_address then some ⟨ip_address, mac⟩ else none
  | .write_update _ => none

/-- The insertions of a trace: those of a FIFO cache that is asked for the same mappings. -/
def insertions (trace : List (address_call × address_result)) : List address_table_entry_t :=
  requests MAC_TABLE_ENTRIES (trace.filterMap fun event => event.1.mapping)

theorem insertions_snoc_none (trace : List (address_call × address_result)) {call : address_call}
    (hnone : call.mapping = none) (result : address_result) :
    insertions (trace ++ [(call, result)]) = insertions trace := by
  simp [insertions, hnone]

theorem insertions_snoc_some (trace : List (address_call × address_result)) {call : address_call}
    {mapping : address_table_entry_t} (hsome : call.mapping = some mapping) (result : address_result) :
    insertions (trace ++ [(call, result)]) = request MAC_TABLE_ENTRIES (insertions trace) mapping := by
  simp [insertions, hsome, requests_snoc]

theorem insertions_append (first second : List (address_call × address_result)) :
    insertions first <+: insertions (first ++ second) := by
  rw [insertions, insertions, List.filterMap_append]
  exact requests_append _ _

theorem insertions_distinct (trace : List (address_call × address_result)) :
    (window MAC_TABLE_ENTRIES (insertions trace)).Nodup :=
  nodup_window_requests (by decide) _

/-- Only private addresses are ever inserted. -/
theorem insertions_private {trace : List (address_call × address_result)} {mapping : address_table_entry_t}
    (hmem : mapping ∈ insertions trace) : is_address_private mapping.ip_address = true := by
  obtain ⟨event, -, hevent⟩ := List.mem_filterMap.mp (mem_of_mem_requests hmem)
  cases hcall : event.1 with
  | write_update handle => simp [hcall, address_call.mapping] at hevent
  | lookup ip_address mac =>
    simp only [hcall, address_call.mapping, Option.ite_none_right_eq_some, Option.some.injEq] at hevent
    obtain ⟨hprivate, rfl⟩ := hevent
    exact hprivate

theorem address_table_write_update_table (s : Session) (table : address_table_t) (handle : gzFile) :
    (address_table_write_update s table handle).2.1 = table ∨
      (address_table_write_update s table handle).2.1 = table.reset_added := by
  simp only [address_table_write_update]
  split
  · exact .inr rfl
  · exact .inl rfl

/-- Either call leaves the ring of the insertions that include its own. -/
theorem address_table_t.Logs.step (h : table.Logs log sent) (trace : List (address_call × address_result))
    (hlog : log = insertions trace) {s : Session} {call : address_call} {table' : address_table_t}
    {result : address_result} (hstep : address_call_step s table call = some (table', result)) :
    ∃ sent', table'.Logs (insertions (trace ++ [(call, result)])) sent' := by
  subst hlog
  cases call with
  | lookup ip_address mac =>
    simp only [address_call_step, Option.some.injEq, Prod.mk.injEq] at hstep
    obtain ⟨rfl, -⟩ := hstep
    cases hprivate : is_address_private ip_address with
    | false =>
      rw [insertions_snoc_none trace (by simp [address_call.mapping, hprivate]),
        address_table_lookup_public hprivate]
      exact ⟨sent, h⟩
    | true =>
      have hmapping : (address_call.lookup ip_address mac).mapping = some ⟨ip_address, mac⟩ := if_pos hprivate
      have hrequest := @address_table_t.Logs.new_mapping_eq_request _ _ _ h ⟨ip_address, mac⟩ hprivate
      rw [insertions_snoc_some trace hmapping, ← hrequest]
      exact ⟨sent, address_table_lookup_logs h ip_address mac⟩
  | write_update handle =>
    simp only [address_call_step, Option.map_eq_some_iff, Prod.mk.injEq] at hstep
    obtain ⟨_, _, rfl, -⟩ := hstep
    rw [insertions_snoc_none trace rfl]
    obtain hsame | hreset := address_table_write_update_table s table handle
    · rw [hsame]
      exact ⟨sent, h⟩
    · rw [hreset]
      exact ⟨_, h.reset_added⟩

/-- Every run leaves the ring of the insertions of a FIFO cache. -/
theorem address_call_run_logs {s : Session} {trace : List (address_call × address_result)}
    {table : address_table_t} (run : address_call_run s trace table) :
    ∃ sent, table.Logs (insertions trace) sent := by
  induction run with
  | nil => exact ⟨0, address_table_init_logs⟩
  | snoc _ hstep ih =>
    obtain ⟨sent, hlogs⟩ := ih
    exact hlogs.step _ rfl hstep

/-- The live mappings are the last insertions, and a lookup treats the table as
a FIFO cache. -/
structure address_table_t.IsFifo (table : address_table_t) (log : List address_table_entry_t) : Prop where
  live : table.live.map Prod.snd = window MAC_TABLE_ENTRIES log
  length : table.live.length = min log.length MAC_TABLE_ENTRIES
  distinct : (table.live.map Prod.snd).Nodup
  outsider : ∀ ip_address mac, is_address_private ip_address = false →
    address_table_lookup table ip_address mac = (-1, table)
  hit : ∀ ip_address mac mac_id, (mac_id, ⟨ip_address, mac⟩) ∈ table.live →
    address_table_lookup table ip_address mac = (mac_id, table)
  miss : ∀ ip_address mac, is_address_private ip_address = true →
    (∀ mac_id, (mac_id, ⟨ip_address, mac⟩) ∉ table.live) →
    ∃ mac_id table', address_table_lookup table ip_address mac = (mac_id, table') ∧
      table'.entries (mac_slot mac_id) = ⟨ip_address, mac⟩ ∧
      table'.live = (if table.live.length = MAC_TABLE_ENTRIES then table.live.tail else table.live) ++
        [(mac_id, ⟨ip_address, mac⟩)]

theorem address_table_t.Logs.live_snd (h : table.Logs log sent) :
    table.live.map Prod.snd = window MAC_TABLE_ENTRIES log := by
  rw [h.live_eq, map_window, numbered_snd]

/-- An added mapping takes the place of the oldest one in a full table. -/
theorem address_table_t.Logs.live_add (h : table.Logs log sent) (mapping : address_table_entry_t) :
    (table.add mapping).live =
      (if table.live.length = MAC_TABLE_ENTRIES then table.live.tail else table.live) ++
        [((table.add mapping).last, mapping)] := by
  obtain ⟨hadded, hlast⟩ := h.add mapping
  rw [hadded.live_eq, numbered_snoc, window_snoc (by decide), ← h.live_eq, hlast]
  rfl

/-- The ring of a log whose last mappings are different is a FIFO cache. -/
theorem address_table_t.Logs.isFifo (h : table.Logs log sent) (hdistinct : (window MAC_TABLE_ENTRIES log).Nodup)
    (hprivate : ∀ mapping ∈ log, is_address_private mapping.ip_address = true) : table.IsFifo log where
  live := h.live_snd
  length := by rw [h.live_eq, length_window, length_numbered]
  distinct := by
    rw [h.live_snd]
    exact hdistinct
  outsider _ mac hpublic := address_table_lookup_public hpublic table mac
  hit ip_address mac mac_id hlive := by
    obtain ⟨index, hindex, -, -⟩ := h.mem_live_iff.mp hlive
    rw [address_table_lookup, if_pos (hprivate _ (List.mem_of_getElem? hindex)),
      (h.find_eq_some_iff hdistinct).mpr hlive]
  miss ip_address mac hprivate' hnew := by
    have hfind : table.find ⟨ip_address, mac⟩ = none := by
      apply Option.eq_none_iff_forall_not_mem.mpr
      intro mac_id hfound
      exact hnew mac_id ((h.find_eq_some_iff hdistinct).mp hfound)
    refine ⟨(table.add ⟨ip_address, mac⟩).last, table.add ⟨ip_address, mac⟩, ?_, ?_, h.live_add _⟩
    · rw [address_table_lookup, if_pos hprivate', hfind]
    · exact Function.update_self ..

/-- A mapping that a lookup inserts gets the slot of its position. -/
theorem address_table_t.Logs.inserted_id (h : table.Logs log sent) {ip_address : UInt32}
    (hprivate : is_address_private ip_address = true) (mac : mac_address_t)
    (hinserted : request MAC_TABLE_ENTRIES log ⟨ip_address, mac⟩ = log ++ [⟨ip_address, mac⟩]) :
    (address_table_lookup table ip_address mac).1 = (log.length : Int) % MAC_TABLE_ENTRIES := by
  obtain ⟨index, hindex, hlater, -, hid⟩ := address_table_lookup_id h hprivate mac
  have hrequest := @address_table_t.Logs.new_mapping_eq_request _ _ _ h ⟨ip_address, mac⟩ hprivate
  rw [hrequest, hinserted] at hindex hlater
  have hlt := (List.getElem?_eq_some_iff.mp hindex).1
  have hlast : ¬ index < log.length := fun hearlier => hlater log.length hearlier List.getElem?_concat_length
  rw [List.length_append, List.length_singleton] at hlt
  have hposition : index = log.length := by omega
  rw [hid, hposition]
  rfl

/-- In every run the table is a FIFO ring of the mappings inserted, and a
mapping keeps its id until the ring has gone round. -/
theorem address_table_fifo {s : Session} {trace : List (address_call × address_result)} {table : address_table_t}
    (run : address_call_run s trace table) :
    table.IsFifo (insertions trace) ∧
      ∀ before ip_address mac mac_id after,
        trace = before ++ (.lookup ip_address mac, .looked_up mac_id) :: after →
        insertions (before ++ [(.lookup ip_address mac, .looked_up mac_id)]) =
          insertions before ++ [⟨ip_address, mac⟩] →
        (insertions trace).length -
          (insertions (before ++ [(.lookup ip_address mac, .looked_up mac_id)])).length < MAC_TABLE_ENTRIES →
        (mac_id, ⟨ip_address, mac⟩) ∈ table.live := by
  obtain ⟨sent, hlogs⟩ := address_call_run_logs run
  constructor
  · exact hlogs.isFifo (insertions_distinct trace) fun _ => insertions_private
  · intro before ip_address mac mac_id after htrace hinserted hfurther
    have hprivate : is_address_private ip_address = true := by
      have hmem : ⟨ip_address, mac⟩ ∈ insertions (before ++ [(.lookup ip_address mac, .looked_up mac_id)]) := by
        rw [hinserted]
        exact List.mem_append_right _ List.mem_cons_self
      exact insertions_private hmem
    have hmapping : (address_call.lookup ip_address mac).mapping = some ⟨ip_address, mac⟩ := if_pos hprivate
    have hprefix := insertions_append (before ++ [(.lookup ip_address mac, .looked_up mac_id)]) after
    rw [List.append_assoc, List.singleton_append, ← htrace, hinserted] at hprefix
    subst htrace
    obtain ⟨earlier, hbefore, hrest⟩ := run.split
    obtain ⟨later, hstep, -⟩ := Execution.cons_iff.mp hrest
    obtain ⟨sent', hlogs'⟩ := address_call_run_logs hbefore
    simp only [address_call_step, Option.some.injEq, Prod.mk.injEq, address_result.looked_up.injEq] at hstep
    rw [insertions_snoc_some before hmapping] at hinserted hfurther
    have hid := hlogs'.inserted_id hprivate mac hinserted
    rw [hinserted, List.length_append, List.length_singleton] at hfurther
    apply hlogs.mem_live_iff.mpr
    refine ⟨(insertions before).length, ?_, by omega, hstep.2.symm.trans hid⟩
    obtain ⟨further, hwhole⟩ := hprefix
    rw [← hwhole, List.append_assoc, List.getElem?_append_right (le_refl _), Nat.sub_self]
    rfl

/-- The MAC addresses of some devices. -/
def device_mac (device : Nat) : mac_address_t := #v[0, 0, 0, 0, .ofNat (device / 256), .ofNat device]

def device_lookup (device : Nat) : address_call := .lookup 0x0a000001 (device_mac device)

def device_mapping (device : Nat) : address_table_entry_t := ⟨0x0a000001, device_mac device⟩

theorem device_lookup_mapping (device : Nat) : (device_lookup device).mapping = some (device_mapping device) := by
  rw [device_lookup, address_call.mapping, if_pos (by decide), device_mapping]

theorem device_mac_inj {first second : Nat} (hfirst : first < 65536) (hsecond : second < 65536)
    (h : device_mac first = device_mac second) : first = second := by
  have hhigh : UInt8.ofNat (first / 256) = .ofNat (second / 256) := congrArg (·[4]) h
  have hlow : UInt8.ofNat first = .ofNat second := congrArg (·[5]) h
  rw [← UInt8.toNat_inj, UInt8.toNat_ofNat', UInt8.toNat_ofNat'] at hhigh hlow
  omega

/-- Lookups never fail. -/
theorem device_lookup_step (s : Session) (table : address_table_t) (device : Nat) : ∃ mac_id table',
    address_call_step s table (device_lookup device) = some (table', .looked_up mac_id) := ⟨_, _, rfl⟩

theorem device_lookups_run (s : Session) (devices : List Nat) :
    ∃ trace table, address_call_run s trace table ∧ trace.map Prod.fst = devices.map device_lookup := by
  induction devices using List.reverseRecOn with
  | nil => exact ⟨[], _, .nil, rfl⟩
  | append_singleton devices device ih =>
    obtain ⟨trace, table, run, hcalls⟩ := ih
    obtain ⟨mac_id, table', hstep⟩ := device_lookup_step s table device
    refine ⟨_, table', run.snoc hstep, ?_⟩
    rw [List.map_append, List.map_append, hcalls, List.map_singleton, List.map_singleton]

theorem device_mappings_nodup {count : Nat} (hcount : count ≤ 65536) :
    ((List.range count).map device_mapping).Nodup := by
  refine List.Nodup.map_on (fun first hfirst second hsecond h => ?_) List.nodup_range
  rw [List.mem_range] at hfirst hsecond
  exact device_mac_inj (by omega) (by omega) (address_table_entry_t.mk.inj h).2

/-- Different devices are all inserted. -/
theorem device_insertions {trace : List (address_call × address_result)} {count : Nat} (hcount : count ≤ 65536)
    (hcalls : trace.map Prod.fst = (List.range count).map device_lookup) :
    insertions trace = (List.range count).map device_mapping := by
  have hmapping : address_call.mapping ∘ device_lookup = some ∘ device_mapping := funext device_lookup_mapping
  change requests MAC_TABLE_ENTRIES (trace.filterMap (address_call.mapping ∘ Prod.fst)) = _
  rw [← List.filterMap_map, hcalls, List.filterMap_map, hmapping, List.filterMap_eq_map,
    requests_of_nodup (device_mappings_nodup hcount)]

/-- As many devices as the ring has slots, then one more, and that one again:
the first one is evicted, once. -/
theorem address_table_fifo_evicts : ∃ trace table mac_id again,
    address_call_run reference_session
        (trace ++ [(device_lookup 256, .looked_up mac_id), (device_lookup 256, .looked_up again)]) table ∧
      trace.map Prod.fst = (List.range MAC_TABLE_ENTRIES).map device_lookup ∧
      table.live.map Prod.snd = ((List.range 257).map device_mapping).tail ∧
      (mac_id, device_mapping 256) ∈ table.live := by
  obtain ⟨trace, filled, hfilled, hcalls⟩ := device_lookups_run reference_session (List.range MAC_TABLE_ENTRIES)
  obtain ⟨mac_id, evicted, hinsert⟩ := device_lookup_step reference_session filled 256
  obtain ⟨again, table, hagain⟩ := device_lookup_step reference_session evicted 256
  have run := (hfilled.snoc hinsert).snoc hagain
  have hrange : List.range MAC_TABLE_ENTRIES ++ [256] = List.range 257 := List.range_succ.symm
  have hcalls' : (trace ++ [(device_lookup 256, address_result.looked_up mac_id)]).map Prod.fst =
      (List.range 257).map device_lookup := by
    rw [← hrange, List.map_append, hcalls, List.map_append, List.map_singleton, List.map_singleton]
  have hfirst := device_insertions (by decide) hcalls
  have hnew := device_insertions (by decide) hcalls'
  have hheld : device_mapping 256 ∈ window MAC_TABLE_ENTRIES ((List.range 257).map device_mapping) :=
    mem_window_iff.mpr ⟨256, by simp, by simp [MAC_TABLE_ENTRIES]⟩
  have hsame : insertions (trace ++ [(device_lookup 256, .looked_up mac_id)] ++
      [(device_lookup 256, .looked_up again)]) = (List.range 257).map device_mapping := by
    rw [insertions_snoc_some _ (device_lookup_mapping 256), hnew, request, if_pos hheld]
  obtain ⟨hfifo, hlifetime⟩ := address_table_fifo run
  rw [List.append_assoc] at run hsame hlifetime
  refine ⟨trace, table, mac_id, again, run, hcalls, ?_, ?_⟩
  · rw [hfifo.live, List.append_assoc, hsame, window, List.length_map, List.length_range, ← List.drop_one]
    rfl
  · refine hlifetime trace 0x0a000001 (device_mac 256) mac_id _ rfl ?_ ?_
    · have hinserted := hnew
      rw [← hrange, List.map_append, ← hfirst] at hinserted
      exact hinserted
    · have hlater := hnew
      rw [device_lookup] at hlater
      rw [hsame, hlater, Nat.sub_self]
      decide

end bismark_passive.address_table
