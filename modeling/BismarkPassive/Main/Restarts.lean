import BismarkPassive.Files.Kept
import BismarkPassive.Main.Termination

namespace bismark_passive.main

open machine files text

/-! The names of update files -/

/-- The digits at the end of a name. -/
def last_digits (name : cstring) : cstring := (name.reverse.takeWhile fun byte => decide (48 ≤ byte)).reverse

def before_last_digits (name : cstring) : cstring := (name.reverse.dropWhile fun byte => decide (48 ≤ byte)).reverse

/-- A number behind a hyphen is read back from the end. -/
theorem last_digits_numeral (opening : cstring) (number : Nat) :
    last_digits (opening ++ [minus] ++ numeral 10 number) = numeral 10 number ∧
      before_last_digits (opening ++ [minus] ++ numeral 10 number) = opening ++ [minus] := by
  have hdigits : ∀ byte ∈ (numeral 10 number).reverse, decide ((48 : UInt8) ≤ byte) = true := by
    intro byte hbyte
    exact decide_eq_true (le_of_mem_numeral (by decide) (by decide) (List.mem_reverse.mp hbyte))
  have hminus : decide ((48 : UInt8) ≤ minus) = false := by decide
  rw [last_digits, before_last_digits, List.reverse_append, List.reverse_append, List.reverse_singleton,
    List.takeWhile_append_of_pos hdigits, List.dropWhile_append_of_pos hdigits, List.singleton_append,
    List.takeWhile_cons_of_neg (by rw [hminus]; decide), List.dropWhile_cons_of_neg (by rw [hminus]; decide)]
  simp

/-- What stands before a numeral and the numeral are found again. -/
theorem numeral_append_inj {opening opening' : cstring} {number number' : Nat}
    (h : opening ++ [minus] ++ numeral 10 number = opening' ++ [minus] ++ numeral 10 number') :
    opening = opening' ∧ number = number' := by
  obtain ⟨hdigits, hopening⟩ := last_digits_numeral opening number
  obtain ⟨hdigits', hopening'⟩ := last_digits_numeral opening' number'
  rw [h] at hdigits hopening
  exact ⟨List.append_cancel_right (hopening.symm.trans hopening'),
    numeral_injective (by decide) (by decide) (hdigits.symm.trans hdigits')⟩

/-- No numeral ends like this. -/
theorem append_minus_ne {opening name : cstring} {number : Nat} :
    opening ++ [minus] ≠ name ++ [minus] ++ numeral 10 number := by
  intro h
  have hdigits := (last_digits_numeral name number).1
  have hnone : last_digits (opening ++ [minus]) = [] := by
    rw [last_digits, List.reverse_append, List.reverse_singleton, List.singleton_append,
      List.takeWhile_cons_of_neg (by decide), List.reverse_nil]
  rw [← h, hnone] at hdigits
  exact numeral_ne_nil number hdigits.symm

/-- Two names in the same form are equal only if they agree in session and number. -/
theorem decimal_append_inj {opening opening' name name' : cstring} {start start' : Nat} {number number' : Int}
    (hopening : opening = name ++ [minus] ++ numeral 10 start)
    (hopening' : opening' = name' ++ [minus] ++ numeral 10 start')
    (h : opening ++ [minus] ++ decimal number = opening' ++ [minus] ++ decimal number') :
    opening = opening' ∧ number = number' := by
  have hnegative (opening : cstring) (number : Nat) :
      opening ++ [minus] ++ minus :: numeral 10 number = opening ++ [minus] ++ [minus] ++ numeral 10 number := by simp
  unfold decimal at h
  split at h <;> split at h
  · rw [hnegative, hnegative] at h
    obtain ⟨hsame, hnumber⟩ := numeral_append_inj h
    exact ⟨List.append_cancel_right hsame, by omega⟩
  · rw [hnegative] at h
    obtain ⟨hsame, -⟩ := numeral_append_inj h
    exact absurd (hsame.trans hopening') append_minus_ne
  · rw [hnegative] at h
    obtain ⟨hsame, -⟩ := numeral_append_inj h
    exact absurd (hsame.symm.trans hopening) append_minus_ne
  · obtain ⟨hsame, hnumber⟩ := numeral_append_inj h
    exact ⟨hsame, by omega⟩

/-- The name of an update file is that of one router, one start and one number. -/
theorem UPDATE_FILENAME_inj {bismark_id bismark_id' : cstring} {start start' : Int64} {number number' : Int}
    (h : UPDATE_FILENAME bismark_id start number = UPDATE_FILENAME bismark_id' start' number') :
    bismark_id = bismark_id' ∧ start = start' ∧ number = number' := by
  have hname := List.append_cancel_right h
  simp only [List.append_assoc] at hname
  have hname := List.append_cancel_left (List.append_cancel_left hname)
  simp only [← List.append_assoc] at hname
  obtain ⟨hopening, hnumber⟩ := decimal_append_inj rfl rfl hname
  obtain ⟨hid, hstart⟩ := numeral_append_inj hopening
  exact ⟨hid, congrArg Int64.ofUInt64 (UInt64.toNat_inj.mp hstart), hnumber⟩

/-! What a process does to files that are not its own -/

/-- None of these files is the pending one or one of the process. -/
structure NotItsOwn (s : Session) (kept : cstring → Prop) : Prop where
  pending : ¬ kept PENDING_UPDATE_FILENAME
  update : ∀ number, ¬ kept (update_filename s number)

/-- The handler writes to none of these files, and has made the name that it is
about to give. -/
def position_t.Apart (s : Session) (kept : cstring → Prop) (directory : Directory cstring (List Line)) :
    position_t → Prop
  | .print _ writer | .flow_entry _ writer | .mark_flow _ _ writer | .gzclose writer =>
    writer.handle.Apart kept directory
  | .rename name _ => ∃ number, name = update_filename s number
  | _ => True

def process_t.Apart (s : Session) (kept : cstring → Prop) (p : process_t) : Prop :=
  ∀ handler ∈ p.handlers, handler.position.Apart s kept p.directory

/-- A step leaves these files alone. -/
structure LeavesAlone (s : Session) (kept : cstring → Prop) (p p' : process_t) (output : signal_output) : Prop where
  directory : p.directory.Keeps kept p'.directory
  apart : p'.Apart s kept
  named : ∀ update ∈ output.update, ∃ number, update.1 = update_filename s number

section step

variable {s : Session} {kept : cstring → Prop} {p p' : process_t} {handler : handler_t} {interrupted : List handler_t}
  {bismark_mac : mac_address_t} {periods : alarm_periods}

theorem position_t.Apart.of_keeps {directory directory' : Directory cstring (List Line)} {position : position_t}
    (h : position.Apart s kept directory) (hkeeps : directory.Keeps kept directory') :
    position.Apart s kept directory' := by
  cases position <;> first | exact h | exact Handle.Apart.of_keeps h hkeeps

theorem part_t.next_apart (part : part_t) {directory : Directory cstring (List Line)} {writer : writer_t}
    (h : writer.handle.Apart kept directory) : (part.next writer).Apart s kept directory := by
  cases part <;> exact h

theorem reset_t.next_apart (target : Target) (table : reset_t) (directory : Directory cstring (List Line)) :
    (table.next target).Apart s kept directory := by
  cases table
  case dns_table_init =>
    rw [reset_t.next]
    split <;> trivial
  all_goals trivial

/-- The handler goes on after something has happened to the directory. -/
theorem LeavesAlone.goes_on (h : p.Apart s kept) (hhandlers : p.handlers = handler :: interrupted)
    {position : position_t} {output : signal_output} (hdirectory : p.directory.Keeps kept p'.directory)
    (hgoes_on : p'.handlers = { handler with position := position } :: interrupted)
    (hposition : position.Apart s kept p'.directory)
    (hnamed : ∀ update ∈ output.update, ∃ number, update.1 = update_filename s number) :
    LeavesAlone s kept p p' output where
  directory := hdirectory
  apart := by
    have hinterrupted (other : handler_t) (hother : other ∈ interrupted) : other.position.Apart s kept p'.directory :=
      (h other (hhandlers ▸ List.mem_cons_of_mem _ hother)).of_keeps hdirectory
    rw [process_t.Apart, hgoes_on]
    exact List.forall_mem_cons.mpr ⟨hposition, hinterrupted⟩
  named := hnamed

/-- A step that changes neither files nor handlers leaves the files alone. -/
theorem LeavesAlone.ends (h : p.Apart s kept) (hdirectory : p'.directory = p.directory)
    (hhandlers : p'.handlers = p.handlers) :
    LeavesAlone s kept p p' .silent where
  directory := hdirectory ▸ .refl _
  apart := by
    rw [process_t.Apart, hhandlers, hdirectory]
    exact h
  named _ hupdate := nomatch hupdate

/-- A handler's step opens, writes and renames only the session's own names. -/
theorem handler_step_leaves_alone (hown : NotItsOwn s kept) (h : p.Apart s kept)
    (hhandlers : p.handlers = handler :: interrupted) :
    LeavesAlone s kept p (handler_step s bismark_mac periods p handler interrupted).1
      (handler_step s bismark_mac periods p handler interrupted).2 := by
  have hends {p' : process_t} (hdirectory : p'.directory = p.directory) (hsame : p'.handlers = p.handlers) :
      LeavesAlone s kept p p' .silent := .ends h hdirectory hsame
  have hexits : LeavesAlone s kept p p.exits .silent := .ends h rfl rfl
  have hsilent : ∀ update ∈ signal_output.silent.update, ∃ number, update.1 = update_filename s number :=
    fun _ hupdate => nomatch hupdate
  have hstays {p' : process_t} {position : position_t} (hdirectory : p'.directory = p.directory)
      (hgoes_on : p'.handlers = { handler with position := position } :: interrupted)
      (hposition : position.Apart s kept p.directory) : LeavesAlone s kept p p' .silent :=
    .goes_on h hhandlers (hdirectory ▸ .refl _) hgoes_on (hdirectory ▸ hposition) hsilent
  have hposition : handler.position.Apart s kept p.directory := h handler (hhandlers ▸ List.mem_cons_self)
  rw [handler_step]
  split
  · exact hends rfl rfl
  obtain ⟨signal, io, position⟩ := handler
  cases position with
  | count_alarm =>
    refine hstays rfl rfl ?_
    split <;> trivial
  | gzopen =>
    dsimp only
    split
    · exact hexits
    · exact .goes_on h hhandlers (truncate_keeps hown.pending) rfl (truncate_apart hown.pending) hsilent
  | print part writer =>
    have hwriter : writer.handle.Apart kept p.directory := hposition
    dsimp only
    split
    · exact .goes_on h hhandlers hwriter.write rfl (part.next_apart (hwriter.of_keeps hwriter.write)) hsilent
    · exact hexits
  | flow_entry remaining writer =>
    have hwriter : writer.handle.Apart kept p.directory := hposition
    cases remaining with
    | nil => exact hstays rfl rfl hwriter
    | cons idx remaining =>
      dsimp only
      split
      · split
        · exact hexits
        · split
          · exact hexits
          · exact .goes_on h hhandlers hwriter.write rfl (hwriter.of_keeps hwriter.write) hsilent
      · exact hstays rfl rfl hwriter
  | mark_flow idx remaining writer => exact hstays rfl rfl hposition
  | gzclose writer =>
    have hwriter : writer.handle.Apart kept p.directory := hposition
    exact .goes_on h hhandlers (hwriter.close _) rfl trivial hsilent
  | snprintf marked => exact hstays rfl rfl ⟨_, rfl⟩
  | rename name marked =>
    obtain ⟨number, rfl⟩ := hposition
    dsimp only
    split
    · exact hexits
    · rename_i hrename
      split
      · refine .goes_on h hhandlers (rename_keeps hrename hown.pending (hown.update number)) rfl trivial ?_
        rintro update ⟨⟩
        exact ⟨number, rfl⟩
      · exact hexits
  | increment_sequence_number => exact hstays rfl rfl trivial
  | reset table => exact hstays rfl rfl (table.next_apart s.target p.directory)
  | write_frequent_update =>
    have hnext : (if signal = signal_t.SIGALRM then position_t.upload_failures_check else .handler_end).Apart s kept
        p.directory := by
      split <;> trivial
    dsimp only
    split
    · split
      · exact hexits
      · exact hstays rfl rfl hnext
    · exact hstays rfl rfl hnext
  | upload_failures_check =>
    dsimp only
    split
    · exact hexits
    · exact hstays rfl rfl trivial
  | handler_end =>
    dsimp only
    split
    · refine ⟨.refl _, fun other hother => ?_, hsilent⟩
      exact h other (hhandlers ▸ List.mem_cons_of_mem _ hother)
    · exact hexits

/-- So does every step of the process. -/
theorem signal_step_leaves_alone (hown : NotItsOwn s kept) (h : p.Apart s kept) {event : signal_event}
    {output : signal_output} (hstep : signal_step s bismark_mac periods p event = some (p', output)) :
    LeavesAlone s kept p p' output := by
  cases event with
  | process_packet frame =>
    obtain ⟨⟨-, hnone⟩, hmapped⟩ := Option.ite_none_right_eq_some.mp hstep
    obtain ⟨_, -, heq⟩ := Option.map_eq_some_iff.mp hmapped
    obtain ⟨rfl, rfl⟩ := Prod.mk.inj heq
    exact ⟨.refl _, h, fun _ hupdate => nomatch hupdate⟩
  | deliver signal io =>
    obtain ⟨-, heq⟩ := Option.ite_none_right_eq_some.mp hstep
    obtain ⟨rfl, rfl⟩ := Prod.mk.inj (Option.some.inj heq)
    refine ⟨.refl _, List.forall_mem_cons.mpr ⟨?_, h⟩, fun _ hupdate => nomatch hupdate⟩
    dsimp only
    split <;> trivial
  | step =>
    rw [signal_step] at hstep
    split at hstep
    · cases hstep
    · rename_i handler interrupted hhandlers
      obtain ⟨-, heq⟩ := Option.ite_none_right_eq_some.mp hstep
      have hleaves := @handler_step_leaves_alone s kept p handler interrupted bismark_mac periods hown h hhandlers
      rw [Option.some.inj heq] at hleaves
      exact hleaves

end step

/-! One process after another -/

/-- A process that finds the files of earlier ones, up to any moment of its run. -/
structure life_t where
  session : Session
  bismark_mac : mac_address_t
  periods : alarm_periods
  domain_whitelist : domain_whitelist_t
  bloom_whitelist : bloom_whitelist_t
  found : Directory cstring (List Line)
  trace : signal_trace
  process : process_t
  run : Execution (signal_step session bismark_mac periods)
    { process_init session.target domain_whitelist bloom_whitelist with directory := found } trace process

/-- What a life does to files that are not its own, and how it names its own. -/
theorem life_t.leaves_alone (life : life_t) {kept : cstring → Prop} (hown : NotItsOwn life.session kept) :
    life.found.Keeps kept life.process.directory ∧
      ∀ update ∈ staged_updates life.trace, ∃ number, update.1 = update_filename life.session number := by
  have hinvariant := life.run.invariant (fun trace p =>
    (life.found.Keeps kept p.directory ∧ p.Apart life.session kept) ∧
      ∀ update ∈ staged_updates trace, ∃ number, update.1 = update_filename life.session number)
    ⟨⟨.refl _, fun _ hhandler => absurd hhandler List.not_mem_nil⟩, fun _ hupdate => absurd hupdate List.not_mem_nil⟩
    (by
      rintro trace p event p' output - ⟨⟨hkeeps, hapart⟩, hnamed⟩ hstep
      have hleaves := signal_step_leaves_alone hown hapart hstep
      refine ⟨⟨hkeeps.trans hleaves.directory, hleaves.apart⟩, fun update hupdate => ?_⟩
      rw [staged_updates, List.filterMap_append, List.mem_append] at hupdate
      obtain hearlier | hlast := hupdate
      · exact hnamed update hearlier
      · obtain ⟨_, hentry, hupdate⟩ := List.mem_filterMap.mp hlast
        obtain rfl := List.mem_singleton.mp hentry
        exact hleaves.named update hupdate)
  exact ⟨hinvariant.1.1, hinvariant.2⟩

theorem life_t.staged_names (life : life_t) :
    ∀ update ∈ staged_updates life.trace, ∃ number, update.1 = update_filename life.session number :=
  (@life_t.leaves_alone life (fun _ => False) ⟨id, fun _ => id⟩).2

/-- The processes belong to different routers or have started at different times. -/
def life_t.Differs (life later : life_t) : Prop :=
  later.session.bismark_id ≠ life.session.bismark_id ∨
    later.session.start_timestamp_microseconds ≠ life.session.start_timestamp_microseconds

/-- The files of a life, as a later one finds them. -/
def life_t.files (life : life_t) (name : cstring) : Prop := ∃ number, name = update_filename life.session number

/-- The files of one life are not those of a life that differs from it. -/
theorem life_t.files_not_own {life later : life_t} (h : life.Differs later) : NotItsOwn later.session life.files where
  pending := by
    rintro ⟨number, hname⟩
    exact update_filename_ne_pending life.session number hname.symm
  update := by
    rintro number ⟨number', hname⟩
    obtain ⟨hid, hstart, -⟩ := UPDATE_FILENAME_inj hname
    exact h.elim (fun hne => hne hid) fun hne => hne hstart

/-- The lives after one of them, each of which finds what the one before it has left. -/
theorem later_lives_keep {kept : cstring → Prop} {life : life_t} {later : List life_t}
    (hchain : (life :: later).IsChain fun life next => next.found = life.process.directory)
    (hown : ∀ other ∈ later, NotItsOwn other.session kept) {last : life_t}
    (hlast : (life :: later).getLast? = some last) : life.process.directory.Keeps kept last.process.directory := by
  induction later generalizing life with
  | nil =>
    obtain rfl : life = last := Option.some.inj hlast
    exact .refl _
  | cons next later ih =>
    obtain ⟨hfound, hchain⟩ := List.isChain_cons_cons.mp hchain
    obtain ⟨hnext, hlater⟩ := List.forall_mem_cons.mp hown
    rw [List.getLast?_cons_cons] at hlast
    have hkeeps := (next.leaves_alone hnext).1
    rw [hfound] at hkeeps
    exact hkeeps.trans (ih hchain hlater hlast)

/-- However often the process is stopped or dies and is started again, at
whatever moments and under whatever signals, the update files of each of its
lives are found as that life has left them, provided the lives have different
ids or started at different times. -/
theorem restarts_keep_updates {lives : List life_t}
    (hchain : lives.IsChain fun life next => next.found = life.process.directory)
    (hdiffer : lives.Pairwise life_t.Differs) {life last : life_t} (hlife : life ∈ lives)
    (hlast : lives.getLast? = some last) {update : cstring × Option (List Line)}
    (hupdate : update ∈ staged_updates life.trace) :
    (last.process.directory.entries update.1 = life.process.directory.entries update.1 ∧
      last.process.directory.read update.1 = life.process.directory.read update.1) ∧
      ∀ other ∈ lives, (∃ update' ∈ staged_updates other.trace, update'.1 = update.1) → other = life := by
  obtain ⟨number, hname⟩ := life.staged_names update hupdate
  constructor
  · obtain ⟨before, later, rfl⟩ := List.append_of_mem hlife
    have hlater := (List.pairwise_cons.mp (List.pairwise_append.mp hdiffer).2.1).1
    rw [List.getLast?_append_of_ne_nil _ (List.cons_ne_nil life later)] at hlast
    have hkeeps := later_lives_keep (List.isChain_append.mp hchain).2.1
      (fun other hother => life_t.files_not_own (hlater other hother)) hlast
    exact ⟨hkeeps.entries _ ⟨number, hname⟩, hkeeps.read _ ⟨number, hname⟩⟩
  · rintro other hother ⟨update', hupdate', hsame⟩
    obtain ⟨number', hname'⟩ := other.staged_names update' hupdate'
    rw [hname, hname'] at hsame
    obtain ⟨hid, hstart, -⟩ := UPDATE_FILENAME_inj hsame
    by_contra hne
    have : Std.Symm life_t.Differs := ⟨fun _ _ h => h.imp Ne.symm Ne.symm⟩
    exact (hdiffer.forall hlife hother (Ne.symm hne)).elim (fun h => h hid) fun h => h hstart

/-- A life that a `SIGTERM` ends. -/
theorem terminated_life {s : Session} (hinitialized : s.anonymization.initialized = true)
    (found : Directory cstring (List Line)) :
    ∃ (life : life_t) (lines : List Line), life.session = s ∧ life.found = found ∧
      staged_updates life.trace = [(update_filename s 0, some lines)] := by
  let start : process_t := { process_init s.target domain_whitelist_init empty_bloom with directory := found }
  have harrives : signal_step s (Vector.replicate ETH_ALEN 0) default_periods start
      (.deliver .SIGTERM (healthy_handler_io 100)) =
      some (handle_signals start .SIGTERM (healthy_handler_io 100), .silent) :=
    signal_step_deliver .SIGTERM _ rfl List.not_mem_nil
  have hready : start.Ready := ⟨rfl, rfl, rfl⟩
  obtain ⟨lines, p', ⟨trace, hsteps, -, -, hstaged⟩, -⟩ := @process_t.Ready.terminates s (Vector.replicate ETH_ALEN 0)
    default_periods _ hready hinitialized empty_bloom_lookup _ (healthy_handler_io_succeeds 100)
  refine ⟨⟨s, Vector.replicate ETH_ALEN 0, default_periods, domain_whitelist_init, empty_bloom, found, _, p',
    (Execution.nil.snoc harrives).trans hsteps⟩, lines, rfl, rfl, ?_⟩
  rw [staged_updates_append]
  exact hstaged

/-- The process is terminated and started again a microsecond later. -/
theorem restarts_keep_updates_terminated :
    ∃ first second : life_t, ∃ update ∈ staged_updates first.trace, second.found = first.process.directory ∧
      (staged_updates second.trace).length = 1 ∧
      second.process.directory.read update.1 = first.process.directory.read update.1 := by
  obtain ⟨first, lines, hfirst, -, hstaged⟩ := @terminated_life initialized_session rfl .empty
  obtain ⟨second, lines', hsecond, hfound, hstaged'⟩ :=
    @terminated_life { initialized_session with start_timestamp_microseconds := 1 } rfl first.process.directory
  have hdiffer : first.Differs second := by
    right
    rw [hfirst, hsecond]
    decide
  have hupdate : (update_filename initialized_session 0, some lines) ∈ staged_updates first.trace :=
    hstaged ▸ List.mem_singleton_self _
  have hchain : [first, second].IsChain fun life next => next.found = life.process.directory :=
    List.isChain_cons_cons.mpr ⟨hfound, List.isChain_singleton second⟩
  have hdiffers : [first, second].Pairwise life_t.Differs :=
    List.pairwise_cons.mpr ⟨List.forall_mem_singleton.mpr hdiffer, List.pairwise_singleton _ _⟩
  obtain ⟨⟨-, hread⟩, -⟩ := restarts_keep_updates hchain hdiffers List.mem_cons_self rfl hupdate
  exact ⟨first, second, _, hupdate, hfound, by rw [hstaged', List.length_singleton], hread⟩

end bismark_passive.main
