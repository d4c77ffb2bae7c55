import BismarkPassive.Main.Accounting

namespace bismark_passive.main

open machine files flow_table address_table packet_series dns http drop_statistics

/-! A handler that no other one interrupts does what its functions do -/

section steps

variable (s : Session) (bismark_mac : mac_address_t) (periods : alarm_periods)

/-- The innermost handler takes some steps, none of which does any harm, and
stages these updates. -/
def Stages (p : process_t) (staged : List (cstring × Option (List Line))) (p' : process_t) : Prop :=
  ∃ trace, Execution (signal_step s bismark_mac periods) p trace p' ∧
    Along (signal_step s bismark_mac periods) p (Harmless s periods bismark_mac) trace ∧
    (∀ step ∈ trace, step.1 = .step) ∧ staged_updates trace = staged

end steps

variable {s : Session} {bismark_mac : mac_address_t} {periods : alarm_periods} {p p' p'' : process_t}
  {handler : handler_t} {interrupted : List handler_t} {first second : List (cstring × Option (List Line))}

theorem staged_updates_append (trace more : signal_trace) :
    staged_updates (trace ++ more) = staged_updates trace ++ staged_updates more := List.filterMap_append

theorem Stages.refl (p : process_t) : Stages s bismark_mac periods p [] p :=
  ⟨[], .nil, .nil, fun _ h => absurd h List.not_mem_nil, rfl⟩

/-- What two stretches stage one after the other. -/
theorem Stages.trans (h : Stages s bismark_mac periods p first p') (h' : Stages s bismark_mac periods p' second p'') :
    Stages s bismark_mac periods p (first ++ second) p'' := by
  obtain ⟨trace, run, harmless, hsteps, rfl⟩ := h
  obtain ⟨trace', run', harmless', hsteps', rfl⟩ := h'
  refine ⟨trace ++ trace', run.trans run', harmless.append run harmless', fun step hstep => ?_,
    staged_updates_append _ _⟩
  obtain hstep | hstep := List.mem_append.mp hstep
  · exact hsteps step hstep
  · exact hsteps' step hstep

theorem Stages.silent (h : Stages s bismark_mac periods p [] p') (h' : Stages s bismark_mac periods p' second p'') :
    Stages s bismark_mac periods p second p'' := h.trans h'

/-- One step of a handler, as a stretch. -/
theorem stages_step (hhandlers : p.handlers = handler :: interrupted) (hrunning : p.status = .running)
    (hcomposes : handler.Composes s periods bismark_mac p) {output : signal_output}
    (hstep : handler_step s bismark_mac periods p handler interrupted = (p', output)) :
    Stages s bismark_mac periods p output.update.toList p' := by
  have hsignal : signal_step s bismark_mac periods p .step = some (p', output) := by
    simp only [signal_step, hhandlers, if_pos hrunning, hstep]
  refine ⟨[(.step, output)], Execution.nil.snoc hsignal, Along.nil.snoc fun before run => ?_, fun step h => ?_,
    staged_updates_snoc [] _ output⟩
  · rw [Execution.nil_iff.mp run]
    intro other hother
    rw [hhandlers] at hother
    obtain rfl := Option.some.inj hother
    exact hcomposes
  · rw [List.mem_singleton.mp h]

theorem stages_silent_step (hhandlers : p.handlers = handler :: interrupted) (hrunning : p.status = .running)
    (hcomposes : handler.Composes s periods bismark_mac p)
    (hstep : handler_step s bismark_mac periods p handler interrupted = (p', .silent)) :
    Stages s bismark_mac periods p [] p' := stages_step hhandlers hrunning hcomposes hstep

/-! The statements of `write_update` -/

/-- The process can go on, and no strings have been freed. -/
structure process_t.Ready (p : process_t) : Prop where
  running : p.status = .running
  dns_freed : p.dns_freed = false
  http_freed : p.http_freed = false

section update

variable {tables tables' : state_t} {directory : Directory cstring (List Line)} {writer : writer_t}

theorem process_t.Ready.not_uses_freed (h : p.Ready) (position position' : position_t) :
    ¬ (p.at_position handler interrupted tables directory position').UsesFreed s.target position := by
  have hdns : (p.at_position handler interrupted tables directory position').dns_freed = false := h.dns_freed
  have hhttp : (p.at_position handler interrupted tables directory position').http_freed = false := h.http_freed
  unfold process_t.UsesFreed
  split <;> simp [hdns, hhttp]

/-- One statement that stages nothing. -/
theorem process_t.Ready.moves (h : p.Ready) {position position' : position_t}
    {directory' : Directory cstring (List Line)}
    (hcomposes : handler_t.Composes s periods bismark_mac (p.at_position handler interrupted tables directory position)
      { handler with position := position })
    (hstep : handler_step s bismark_mac periods (p.at_position handler interrupted tables directory position)
      { handler with position := position } interrupted =
        (p.at_position handler interrupted tables' directory' position', .silent)) :
    Stages s bismark_mac periods (p.at_position handler interrupted tables directory position) []
      (p.at_position handler interrupted tables' directory' position') := by
  have hrunning : (p.at_position handler interrupted tables directory position).status = .running := h.running
  exact stages_silent_step rfl hrunning hcomposes hstep

/-- Printing a part moves on to the next one. -/
theorem process_t.Ready.print (h : p.Ready) {part : part_t} (hhealthy : writer.stream.Healthy) {lines : List Line}
    (hlines : part.lines s tables handler.io.update = lines.map some) :
    Stages s bismark_mac periods (p.at_position handler interrupted tables directory (.print part writer)) []
      (p.at_position handler interrupted (part.leaves tables) (directory.write writer.handle)
        (part.next { writer with stream := writer.stream.append lines })) := by
  apply h.moves
  case hcomposes =>
    intro line hline
    have hmem : line ∈ part.lines s tables handler.io.update := hline
    rw [hlines] at hmem
    obtain ⟨_, _, rfl⟩ := List.mem_map.mp hmem
    rfl
  case hstep =>
    rw [handler_step, if_neg (h.not_uses_freed _ _)]
    have hwrite := part.write_spec s tables handler.io.update hhealthy hlines
    simp only [process_t.at_position, hwrite]

theorem unsent_lines_cons_of_unsent {table : flow_table_t} {idx : Slot} (range : List Slot)
    (hunsent : (table.entries idx).occupied = .ENTRY_OCCUPIED_BUT_UNSENT) :
    unsent_lines s table (idx :: range) = flow_line s idx (table.entries idx) :: unsent_lines s table range := by
  simp [unsent_lines, hunsent]

theorem unsent_lines_cons_of_other {table : flow_table_t} {idx : Slot} (range : List Slot)
    (hsent : (table.entries idx).occupied ≠ .ENTRY_OCCUPIED_BUT_UNSENT) :
    unsent_lines s table (idx :: range) = unsent_lines s table range := by
  simp [unsent_lines, hsent]

/-- The record of an entry, and its marking. -/
theorem process_t.Ready.record (h : p.Ready) {idx : Slot} {remaining : List Slot} (hhealthy : writer.stream.Healthy)
    (hunsent : (tables.flow_table.entries idx).occupied = .ENTRY_OCCUPIED_BUT_UNSENT) {line : Line}
    (hline : flow_line s idx (tables.flow_table.entries idx) = some line) :
    Stages s bismark_mac periods
      (p.at_position handler interrupted tables directory (.flow_entry (idx :: remaining) writer)) []
      (p.at_position handler interrupted tables (directory.write writer.handle)
        (.mark_flow idx remaining { writer with stream := writer.stream.append [line] })) := by
  obtain ⟨hreturned, happend⟩ := gzprintf_healthy hhealthy line
  apply h.moves
  case hcomposes =>
    intro _
    show (flow_line s idx (tables.flow_table.entries idx)).isSome
    rw [hline]
    rfl
  case hstep =>
    rw [handler_step, if_neg (h.not_uses_freed _ _)]
    simp only [process_t.at_position, if_pos hunsent, hline, if_neg hreturned, happend]

/-- Marking a printed flow sent moves on to the next slot. -/
theorem process_t.Ready.mark_flow (h : p.Ready) (idx : Slot) (remaining : List Slot) :
    Stages s bismark_mac periods (p.at_position handler interrupted tables directory (.mark_flow idx remaining writer))
      []
      (p.at_position handler interrupted
        { tables with flow_table :=
            tables.flow_table.store idx { tables.flow_table.entries idx with occupied := .ENTRY_OCCUPIED } }
        directory (.flow_entry remaining { writer with marked := idx :: writer.marked })) := by
  apply h.moves
  case hcomposes => trivial
  case hstep =>
    rw [handler_step, if_neg (h.not_uses_freed _ _)]
    rfl

/-- The loop over the entries of the flow table. -/
theorem process_t.Ready.write_entries (h : p.Ready) {range : List Slot} (hnodup : range.Nodup)
    (hhealthy : writer.stream.Healthy) (hopened : directory.Opened PENDING_UPDATE_FILENAME writer.handle)
    {lines : List Line} (hlines : unsent_lines s tables.flow_table range = lines.map some) :
    ∃ directory' marked, directory'.Opened PENDING_UPDATE_FILENAME writer.handle ∧
      Stages s bismark_mac periods (p.at_position handler interrupted tables directory (.flow_entry range writer)) []
        (p.at_position handler interrupted { tables with flow_table := tables.flow_table.mark_sent range } directory'
          (.print .flow_end ⟨writer.handle, writer.stream.append lines, marked⟩)) := by
  induction range generalizing tables directory writer lines with
  | nil =>
    obtain rfl := List.map_eq_nil_iff.mp hlines.symm
    refine ⟨directory, writer.marked, hopened, ?_⟩
    rw [flow_table_t.mark_sent_nil, gzFile.append_nil]
    apply h.moves
    case hcomposes => trivial
    case hstep =>
      rw [handler_step, if_neg (h.not_uses_freed _ _)]
      rfl
  | cons idx range ih =>
    obtain ⟨hnotmem, hrange⟩ := List.nodup_cons.mp hnodup
    by_cases hunsent : (tables.flow_table.entries idx).occupied = .ENTRY_OCCUPIED_BUT_UNSENT
    · rw [unsent_lines_cons_of_unsent range hunsent] at hlines
      obtain ⟨line, lines, rfl, hline, hrest⟩ := List.map_eq_cons_iff.mp hlines.symm
      obtain ⟨stored, hstored⟩ : ∃ table, table =
          tables.flow_table.store idx { tables.flow_table.entries idx with occupied := .ENTRY_OCCUPIED } := ⟨_, rfl⟩
      have hrest' : unsent_lines s stored range = lines.map some := by
        rw [hstored, unsent_lines_store hnotmem]
        exact hrest.symm
      obtain ⟨directory', marked, hopened', hloop⟩ := @ih
        { tables with flow_table := stored } (directory.write writer.handle)
        ⟨writer.handle, writer.stream.append [line], idx :: writer.marked⟩ hrange (hhealthy.append _)
        (hopened.set_content none) _ hrest'
      refine ⟨directory', marked, hopened', ?_⟩
      have hmarks : stored.mark_sent range = tables.flow_table.mark_sent (idx :: range) := by
        rw [hstored, flow_table_t.mark_sent_cons_of_unsent hunsent]
      rw [gzFile.append_append, List.singleton_append] at hloop
      simp only [hmarks] at hloop
      have hmark := @process_t.Ready.mark_flow s bismark_mac periods p handler interrupted tables
        (directory.write writer.handle) ⟨writer.handle, writer.stream.append [line], writer.marked⟩ h idx range
      rw [← hstored] at hmark
      exact (h.record hhealthy hunsent hline.symm).silent (hmark.silent hloop)
    · rw [unsent_lines_cons_of_other range hunsent] at hlines
      obtain ⟨directory', marked, hopened', hloop⟩ := ih hrange hhealthy hopened hlines
      refine ⟨directory', marked, hopened', ?_⟩
      rw [flow_table_t.mark_sent_cons_of_other hunsent] at hloop
      refine Stages.silent ?_ hloop
      apply h.moves
      case hcomposes => exact fun hcan => absurd hcan hunsent
      case hstep =>
        rw [handler_step, if_neg (h.not_uses_freed _ _)]
        exact if_neg hunsent

theorem composed_append {first rest : List (Option Line)} {lines : List Line} (h : first ++ rest = lines.map some) :
    ∃ composed more, lines = composed ++ more ∧ first = composed.map some ∧ rest = more.map some := by
  obtain ⟨composed, more, rfl, hfirst, hrest⟩ := List.append_eq_map_iff.mp h
  exact ⟨composed, more, rfl, hfirst.symm, hrest.symm⟩

/-- The lines of a part, out of the lines of an update. -/
theorem update_lines_parts (s : Session) (tables : state_t) (io : update_io) :
    update_lines s tables io = part_t.header.lines s tables io ++ (part_t.whitelist.lines s tables io ++
      (part_t.anonymization.lines s tables io ++ (part_t.packets.lines s tables io ++
        (part_t.flow_header.lines s tables io ++ (unsent_lines s tables.flow_table all_slots ++
          (part_t.flow_end.lines s tables io ++ (part_t.dns.lines s tables io ++ (part_t.addresses.lines s tables io ++
            (part_t.drops.lines s tables io ++ part_t.urls.lines s tables io))))))))) := by
  rw [update_lines, flow_table_lines_eq, List.cons_append, List.append_assoc]
  rfl

/-- Only the header of the flow table depends on the flow table. -/
theorem part_t.lines_flow_table {part : part_t} (hpart : part ≠ .flow_header) (flow_table : flow_table_t)
    (io : update_io) : part.lines s { tables with flow_table := flow_table } io = part.lines s tables io := by
  cases part with
  | flow_header => exact absurd rfl hpart
  | _ => rfl

/-- The tables once an update has printed them. -/
def state_t.printed (tables : state_t) : state_t :=
  { tables with
    flow_table := tables.flow_table.mark_sent all_slots
    address_table := tables.address_table.reset_added }

@[simp] theorem state_t.printed_flow_table (tables : state_t) :
    tables.printed.flow_table = tables.flow_table.mark_sent all_slots := rfl

@[simp] theorem state_t.printed_address_table (tables : state_t) :
    tables.printed.address_table = tables.address_table.reset_added := rfl

@[simp] theorem state_t.printed_sequence_number (tables : state_t) :
    tables.printed.sequence_number = tables.sequence_number := by
  unfold state_t.printed
  rfl

@[simp] theorem state_t.printed_dns_table (tables : state_t) : tables.printed.dns_table = tables.dns_table := by
  unfold state_t.printed
  rfl

/-- Opening the file moves on to the header. -/
theorem process_t.Ready.gzopen (h : p.Ready) (hopened : handler.io.update.opened = true) :
    Stages s bismark_mac periods (p.at_position handler interrupted tables directory .gzopen) []
      (p.at_position handler interrupted tables (directory.truncate PENDING_UPDATE_FILENAME).2
        (.print .header ⟨(directory.truncate PENDING_UPDATE_FILENAME).1,
          { gzprintf_returns := handler.io.update.gzprintf_returns, calls := 0, written := [] }, []⟩)) := by
  apply h.moves
  case hcomposes => trivial
  case hstep =>
    rw [handler_step, if_neg (h.not_uses_freed _ _)]
    simp only [update_io.open_file, if_pos hopened, process_t.at_position]

/-- From the end of the printing to the renaming. -/
theorem process_t.Ready.rename (h : p.Ready) (hclosed : handler.io.gzclose_returns = 0)
    (hrenamed : handler.io.update.renamed = true) (hopened : directory.Opened PENDING_UPDATE_FILENAME writer.handle) :
    ∃ directory', Stages s bismark_mac periods
      (p.at_position handler interrupted tables directory (.gzclose writer))
      [(update_filename s tables.sequence_number, some writer.stream.written)]
      (p.at_position handler interrupted tables directory' .increment_sequence_number) := by
  obtain ⟨closed, hclose⟩ : ∃ closed, closed = directory.close writer.handle (some writer.stream.written) := ⟨_, rfl⟩
  have hentry : closed.entries PENDING_UPDATE_FILENAME ≠ none := by
    rw [hclose]
    show directory.entries PENDING_UPDATE_FILENAME ≠ none
    rw [hopened.entry]
    exact Option.some_ne_none _
  obtain ⟨directory', hrename⟩ := Option.isSome_iff_exists.mp
    (rename_isSome hentry (update_filename s tables.sequence_number))
  have hread : directory'.read (update_filename s tables.sequence_number) = some writer.stream.written := by
    rw [rename_read_new hrename, hclose, hopened.close_read_self]
  have hgzclose : Stages s bismark_mac periods
      (p.at_position handler interrupted tables directory (.gzclose writer)) []
      (p.at_position handler interrupted tables closed (.snprintf writer.marked)) := by
    apply h.moves
    case hcomposes => trivial
    case hstep =>
      rw [handler_step, if_neg (h.not_uses_freed _ _)]
      simp only [process_t.at_position, if_pos hclosed, hclose]
  have hsnprintf : Stages s bismark_mac periods
      (p.at_position handler interrupted tables closed (.snprintf writer.marked)) []
      (p.at_position handler interrupted tables closed
        (.rename (update_filename s tables.sequence_number) writer.marked)) := by
    apply h.moves
    case hcomposes => trivial
    case hstep =>
      rw [handler_step, if_neg (h.not_uses_freed _ _)]
      rfl
  have hrunning : (p.at_position handler interrupted tables closed
      (.rename (update_filename s tables.sequence_number) writer.marked)).status = .running := h.running
  have hcomposes : handler_t.Composes s periods bismark_mac (p.at_position handler interrupted tables closed
      (.rename (update_filename s tables.sequence_number) writer.marked))
      { handler with position := .rename (update_filename s tables.sequence_number) writer.marked } := trivial
  have hstep : handler_step s bismark_mac periods (p.at_position handler interrupted tables closed
      (.rename (update_filename s tables.sequence_number) writer.marked))
      { handler with position := .rename (update_filename s tables.sequence_number) writer.marked } interrupted =
      (p.at_position handler interrupted tables directory' .increment_sequence_number,
        .staged (update_filename s tables.sequence_number) (some writer.stream.written)) := by
    rw [handler_step, if_neg (h.not_uses_freed _ _)]
    simp only [process_t.at_position, hrename, if_pos hrenamed, hread]
  exact ⟨directory', hgzclose.silent (hsnprintf.silent (stages_step rfl hrunning hcomposes hstep))⟩

/-- The parts before the loop over the flow entries. -/
theorem process_t.Ready.print_head (h : p.Ready) (hhealthy : writer.stream.Healthy)
    (hopened : directory.Opened PENDING_UPDATE_FILENAME writer.handle)
    {header whitelist anonymization packets flow_header : List Line}
    (hheader : part_t.header.lines s tables handler.io.update = header.map some)
    (hwhitelist : part_t.whitelist.lines s tables handler.io.update = whitelist.map some)
    (hanonymization : part_t.anonymization.lines s tables handler.io.update = anonymization.map some)
    (hpackets : part_t.packets.lines s tables handler.io.update = packets.map some)
    (hflow_header : part_t.flow_header.lines s tables handler.io.update = flow_header.map some) :
    ∃ directory', directory'.Opened PENDING_UPDATE_FILENAME writer.handle ∧
      Stages s bismark_mac periods (p.at_position handler interrupted tables directory (.print .header writer)) []
        (p.at_position handler interrupted tables directory' (.flow_entry all_slots
          { writer with stream := writer.stream.append (header ++ (whitelist ++ (anonymization ++ (packets ++
              flow_header)))) })) := by
  have hhealthy₁ := hhealthy.append header
  have hhealthy₂ := hhealthy₁.append whitelist
  have hhealthy₃ := hhealthy₂.append anonymization
  have hhealthy₄ := hhealthy₃.append packets
  have hfirst : Stages s bismark_mac periods
      (p.at_position handler interrupted tables directory (.print .header writer))
      [] _ := h.print hhealthy hheader
  have hstages := hfirst.silent ((h.print hhealthy₁ hwhitelist).silent ((h.print hhealthy₂ hanonymization).silent
    ((h.print hhealthy₃ hpackets).silent (h.print hhealthy₄ hflow_header))))
  simp only [gzFile.append_append, List.append_assoc] at hstages
  exact ⟨_, ((((hopened.set_content none).set_content none).set_content none).set_content none).set_content none,
    hstages⟩

/-- The parts after it. -/
theorem process_t.Ready.print_tail (h : p.Ready) (hhealthy : writer.stream.Healthy)
    (hopened : directory.Opened PENDING_UPDATE_FILENAME writer.handle)
    {flow_end dns addresses drops urls : List Line}
    (hflow_end : part_t.flow_end.lines s tables handler.io.update = flow_end.map some)
    (hdns : part_t.dns.lines s tables handler.io.update = dns.map some)
    (haddresses : part_t.addresses.lines s tables handler.io.update = addresses.map some)
    (hdrops : part_t.drops.lines s tables handler.io.update = drops.map some)
    (hurls : part_t.urls.lines s tables handler.io.update = urls.map some) :
    ∃ directory', directory'.Opened PENDING_UPDATE_FILENAME writer.handle ∧
      Stages s bismark_mac periods (p.at_position handler interrupted tables directory (.print .flow_end writer)) []
        (p.at_position handler interrupted { tables with address_table := tables.address_table.reset_added } directory'
          (.gzclose { writer with stream := writer.stream.append (flow_end ++ (dns ++ (addresses ++ (drops ++
              urls)))) })) := by
  have hhealthy₁ := hhealthy.append flow_end
  have hhealthy₂ := hhealthy₁.append dns
  have hhealthy₃ := hhealthy₂.append addresses
  have hhealthy₄ := hhealthy₃.append drops
  have hdrops' : part_t.drops.lines s { tables with address_table := tables.address_table.reset_added }
      handler.io.update = drops.map some := hdrops
  have hurls' : part_t.urls.lines s { tables with address_table := tables.address_table.reset_added }
      handler.io.update = urls.map some := hurls
  have hfirst : Stages s bismark_mac periods
      (p.at_position handler interrupted tables directory (.print .flow_end writer))
      [] _ := h.print hhealthy hflow_end
  have hstages := hfirst.silent ((h.print hhealthy₁ hdns).silent ((h.print hhealthy₂ haddresses).silent
    ((h.print hhealthy₃ hdrops').silent (h.print hhealthy₄ hurls'))))
  simp only [gzFile.append_append, List.append_assoc] at hstages
  exact ⟨_, ((((hopened.set_content none).set_content none).set_content none).set_content none).set_content none,
    hstages⟩

/-- An update is staged with everything in the tables. -/
theorem process_t.Ready.stage (h : p.Ready) (hsucceeds : handler.io.Succeeds) {lines : List Line}
    (hlines : update_lines s tables handler.io.update = lines.map some) :
    ∃ directory', Stages s bismark_mac periods (p.at_position handler interrupted tables directory .gzopen)
      [(update_filename s tables.sequence_number, some lines)]
      (p.at_position handler interrupted tables.printed directory' .increment_sequence_number) := by
  rw [update_lines_parts] at hlines
  obtain ⟨header, _, rfl, hheader, hlines⟩ := composed_append hlines
  obtain ⟨whitelist, _, rfl, hwhitelist, hlines⟩ := composed_append hlines
  obtain ⟨anonymization, _, rfl, hanonymization, hlines⟩ := composed_append hlines
  obtain ⟨packets, _, rfl, hpackets, hlines⟩ := composed_append hlines
  obtain ⟨flow_header, _, rfl, hflow_header, hlines⟩ := composed_append hlines
  obtain ⟨flows, _, rfl, hflows, hlines⟩ := composed_append hlines
  obtain ⟨flow_end, _, rfl, hflow_end, hlines⟩ := composed_append hlines
  obtain ⟨dns, _, rfl, hdns, hlines⟩ := composed_append hlines
  obtain ⟨addresses, _, rfl, haddresses, hlines⟩ := composed_append hlines
  obtain ⟨drops, urls, rfl, hdrops, hurls⟩ := composed_append hlines
  obtain ⟨stream, hstream⟩ : ∃ stream : gzFile, stream =
      { gzprintf_returns := handler.io.update.gzprintf_returns, calls := 0, written := [] } := ⟨_, rfl⟩
  have hhealthy : stream.Healthy := by
    rw [hstream]
    exact fun call _ => hsucceeds.healthy call
  have hopened := truncate_opened directory PENDING_UPDATE_FILENAME
  have hgzopen := @process_t.Ready.gzopen s bismark_mac periods p handler interrupted tables directory h
    hsucceeds.opened
  rw [← hstream] at hgzopen
  obtain ⟨directory₁, hopened₁, hhead⟩ := @process_t.Ready.print_head s bismark_mac periods p handler interrupted
    tables _ ⟨_, stream, []⟩ h hhealthy hopened _ _ _ _ _ hheader hwhitelist hanonymization hpackets hflow_header
  have hhealthy₁ := hhealthy.append (header ++ (whitelist ++ (anonymization ++ (packets ++ flow_header))))
  obtain ⟨directory₂, marked, hopened₂, hloop⟩ := @process_t.Ready.write_entries s bismark_mac periods p handler
    interrupted tables directory₁ ⟨_, stream.append _, []⟩ h _ nodup_all_slots hhealthy₁ hopened₁ _ hflows
  have hsame {part : part_t} {lines : List Line} (hpart : part ≠ .flow_header)
      (hlines : part.lines s tables handler.io.update = lines.map some) :
      part.lines s { tables with flow_table := tables.flow_table.mark_sent all_slots } handler.io.update =
        lines.map some := (part_t.lines_flow_table hpart _ _).trans hlines
  obtain ⟨directory₃, hopened₃, htail⟩ := @process_t.Ready.print_tail s bismark_mac periods p handler interrupted
    { tables with flow_table := tables.flow_table.mark_sent all_slots } directory₂
    ⟨_, (stream.append _).append flows, marked⟩ h (hhealthy₁.append flows) hopened₂ _ _ _ _ _
    (hsame part_t.noConfusion hflow_end) (hsame part_t.noConfusion hdns) (hsame part_t.noConfusion haddresses)
    (hsame part_t.noConfusion hdrops) (hsame part_t.noConfusion hurls)
  obtain ⟨directory₄, hrename⟩ := @process_t.Ready.rename s bismark_mac periods p handler interrupted tables.printed
    directory₃ ⟨_, ((stream.append _).append flows).append _, marked⟩ h hsucceeds.closed hsucceeds.renamed hopened₃
  rw [state_t.printed_sequence_number] at hrename
  have hstages := hgzopen.silent (hhead.silent (hloop.silent (htail.silent hrename)))
  rw [hstream] at hstages
  simp only [gzFile.append, List.nil_append, List.append_assoc] at hstages
  exact ⟨directory₄, hstages⟩

/-- The process after one of the statements that follow `++sequence_number`. -/
def process_t.after_reset (target : Target) (p : process_t) (handler : handler_t) (interrupted : List handler_t)
    (table : reset_t) : process_t :=
  { p with
    tables := table.reset target handler.io.update.current_timestamp p.tables
    dns_freed := table.dns_freed p.dns_freed
    http_freed := table.http_freed p.http_freed
    handlers := { handler with position := table.next target } :: interrupted }

theorem process_t.after_reset_handlers {target : Target} {table : reset_t} {position : position_t}
    (h : table.next target = position) :
    (p.after_reset target handler interrupted table).handlers =
      { handler with position := position } :: interrupted := by
  rw [← h]
  rfl

/-- Resetting a table that is not in use moves on. -/
theorem Stages.reset {table : reset_t} {start : process_t} (h : Stages s bismark_mac periods start [] p)
    (hrunning : p.status = .running)
    (hhandlers : p.handlers = { handler with position := .reset table } :: interrupted)
    (hfreed : ¬ p.UsesFreed s.target (.reset table)) :
    Stages s bismark_mac periods start [] (p.after_reset s.target handler interrupted table) := by
  have hcomposes : handler_t.Composes s periods bismark_mac p { handler with position := .reset table } := trivial
  have hstep : handler_step s bismark_mac periods p { handler with position := .reset table } interrupted =
      (p.after_reset s.target handler interrupted table, .silent) := by
    rw [handler_step, if_neg hfreed]
    rfl
  exact h.silent (stages_silent_step hhandlers hrunning hcomposes hstep)

/-- The tables are reset once the update has been staged. -/
theorem process_t.Ready.reset (h : p.Ready) :
    Stages s bismark_mac periods (p.at_position handler interrupted tables directory .increment_sequence_number) []
      (p.at_position handler interrupted
        (reset_state s tables tables.flow_table tables.address_table handler.io.update.current_timestamp) directory
        .write_frequent_update) := by
  have hincrement : Stages s bismark_mac periods
      (p.at_position handler interrupted tables directory .increment_sequence_number) []
      (p.at_position handler interrupted { tables with sequence_number := tables.sequence_number + 1 } directory
        (.reset .packet_series_init)) := by
    apply h.moves
    case hcomposes => trivial
    case hstep =>
      rw [handler_step, if_neg (h.not_uses_freed _ _)]
      rfl
  have hkept {freed : Bool} {named : Prop} (hfreed : freed = false) : ¬ (freed = true ∧ named) := by
    rw [hfreed]
    exact fun huses => Bool.noConfusion huses.1
  have hpackets := hincrement.reset h.running rfl id
  have hflows := hpackets.reset h.running rfl id
  have hdns_destroy := hflows.reset h.running rfl (hkept h.dns_freed)
  have hdns_init := hdns_destroy.reset h.running rfl id
  by_cases hurls : s.target.enable_http_url = true
  · have hnext : reset_t.next s.target .dns_table_init = .reset .http_table_destroy := by
      rw [reset_t.next, if_pos hurls]
    have hhttp_destroy := hdns_init.reset h.running (process_t.after_reset_handlers hnext) (hkept h.http_freed)
    have hhttp_init := hhttp_destroy.reset h.running rfl id
    have hdrops := hhttp_init.reset h.running rfl id
    simp only [process_t.after_reset, process_t.at_position, reset_t.reset, reset_t.next, reset_t.dns_freed,
      reset_t.http_freed, reset_state, if_pos hurls, h.dns_freed, h.http_freed] at hdrops ⊢
    exact hdrops
  · have hnext : reset_t.next s.target .dns_table_init = .reset .drop_statistics_init := by
      rw [reset_t.next, if_neg hurls]
    have hdrops := hdns_init.reset h.running (process_t.after_reset_handlers hnext) id
    simp only [process_t.after_reset, process_t.at_position, reset_t.reset, reset_t.next, reset_t.dns_freed,
      reset_t.http_freed, reset_state, if_neg hurls, h.dns_freed, h.http_freed] at hdrops ⊢
    exact hdrops

theorem reset_state_printed_tables (flow_table : flow_table_t) (address_table : address_table.address_table_t)
    (current_timestamp : Int) :
    reset_state s tables.printed flow_table address_table current_timestamp =
      reset_state s tables flow_table address_table current_timestamp := by
  unfold reset_state state_t.printed
  rfl

theorem reset_state_printed (current_timestamp : Int) :
    reset_state s tables.printed tables.printed.flow_table tables.printed.address_table current_timestamp =
      reset_state s tables (tables.flow_table.mark_sent all_slots) tables.address_table.reset_added
        current_timestamp := by
  rw [state_t.printed_flow_table, state_t.printed_address_table, reset_state_printed_tables]

/-- Every line of an update that completes has been composed. -/
theorem write_update_composed {update : update_t} {io : update_io}
    (hwrite : write_update s tables io = some (tables', update)) :
    ∃ lines : List Line, update_lines s tables io = lines.map some := by
  have hisSome : (write_update s tables io).isSome := by
    rw [hwrite]
    rfl
  obtain ⟨_, hpasses, _⟩ := (write_update_isSome_iff s tables io).mp hisSome
  exact exists_map_some hpasses.1

/-- The statements of a handler that nothing interrupts do what `write_update`
does. -/
theorem process_t.Ready.write_update (h : p.Ready) (hsucceeds : handler.io.Succeeds) {update : update_t}
    (hwrite : write_update s tables handler.io.update = some (tables', update)) :
    ∃ lines directory', update_lines s tables handler.io.update = lines.map some ∧
      Stages s bismark_mac periods (p.at_position handler interrupted tables directory .gzopen)
        [(update_filename s tables.sequence_number, some lines)]
        (p.at_position handler interrupted tables' directory' .write_frequent_update) := by
  obtain ⟨lines, hlines⟩ := write_update_composed hwrite
  obtain ⟨directory', hstage⟩ := h.stage hsucceeds hlines
  have hreset := (write_update_spec hsucceeds.healthy hwrite).reset
  refine ⟨lines, directory', hlines, ?_⟩
  rw [hreset, ← reset_state_printed]
  exact hstage.trans h.reset

/-- A terminating handler ends the process once it has staged its update,
whatever becomes of the frequent update. -/
theorem process_t.Ready.exits (h : p.Ready) (hsignal : handler.signal ≠ .SIGALRM) :
    ∃ p', Stages s bismark_mac periods
        (p.at_position handler interrupted tables directory .write_frequent_update) [] p' ∧
      p'.status = .exited := by
  have hcomposes (tables : state_t) (position : position_t)
      (hposition : position = .write_frequent_update ∨ position = .handler_end) :
      handler_t.Composes s periods bismark_mac (p.at_position handler interrupted tables directory position)
        { handler with position := position } := by
    obtain rfl | rfl := hposition
    · exact fun _ hidle => absurd hidle.1 hsignal
    · trivial
  have hends (position : position_t) (hposition : position = .write_frequent_update ∨ position = .handler_end)
      (tables : state_t)
      (hstep : handler_step s bismark_mac periods (p.at_position handler interrupted tables directory position)
        { handler with position := position } interrupted =
          ((p.at_position handler interrupted tables directory position).exits, .silent)) :
      ∃ p', Stages s bismark_mac periods (p.at_position handler interrupted tables directory position) [] p' ∧
        p'.status = .exited := by
    have hrunning : (p.at_position handler interrupted tables directory position).status = .running := h.running
    exact ⟨_, stages_silent_step rfl hrunning (hcomposes _ _ hposition) hstep, rfl⟩
  have hgoes (tables' : state_t)
      (hstep : handler_step s bismark_mac periods
          (p.at_position handler interrupted tables directory .write_frequent_update)
          { handler with position := .write_frequent_update } interrupted =
        (p.at_position handler interrupted tables' directory .handler_end, .silent)) :
      ∃ p', Stages s bismark_mac periods (p.at_position handler interrupted tables directory .write_frequent_update) []
        p' ∧ p'.status = .exited := by
    obtain ⟨p', hend, hexited⟩ := hends .handler_end (.inr rfl) tables' (by
      rw [handler_step, if_neg (h.not_uses_freed _ _)]
      exact if_neg hsignal)
    exact ⟨p', (h.moves (hcomposes _ _ (.inl rfl)) hstep).silent hend, hexited⟩
  by_cases hfrequent : s.target.enable_frequent_updates = true
  · cases hwrite : write_frequent_update s bismark_mac tables handler.io.frequent with
    | none =>
      apply hends .write_frequent_update (.inl rfl)
      rw [handler_step, if_neg (h.not_uses_freed _ _)]
      simp only [process_t.at_position, if_pos hfrequent, hwrite]
    | some tables' =>
      apply hgoes tables'
      rw [handler_step, if_neg (h.not_uses_freed _ _)]
      simp only [process_t.at_position, if_pos hfrequent, hwrite, if_neg hsignal]
  · apply hgoes tables
    rw [handler_step, if_neg (h.not_uses_freed _ _)]
    simp only [process_t.at_position, if_neg hfrequent, if_neg hsignal]

end update

end bismark_passive.main
