import BismarkPassive.Machine.Lockstep
import BismarkPassive.Sha1.Streaming

namespace bismark_passive.polarssl

open machine sha1_standard

variable {w : Nat}

/-! The interface of `sha1.h` as an object -/

/-- `hmac_starts` comes with what the stack holds where a long key's digest is made. -/
inductive sha1_call (w : Nat) where
  | starts
  | update (input : List UInt8)
  | finish
  | hmac_starts (local_ctx : sha1_context w) (key : List UInt8)
  | hmac_update (input : List UInt8)
  | hmac_finish
  | hmac_reset

/-- The bytes that a call is given. -/
def sha1_call.input : sha1_call w → List UInt8
  | .update input => input
  | .hmac_starts _ key => key
  | .hmac_update input => input
  | _ => []

/-- The context after a call, and the call's output. -/
def sha1_call.run (ctx : sha1_context w) : sha1_call w → sha1_context w × List UInt8
  | .starts => (sha1_starts ctx, [])
  | .update input => (sha1_update ctx input, [])
  | .finish => ((sha1_finish ctx).2, (sha1_finish ctx).1)
  | .hmac_starts local_ctx key => (sha1_hmac_starts ctx local_ctx key, [])
  | .hmac_update input => (sha1_hmac_update ctx input, [])
  | .hmac_finish => ((sha1_hmac_finish ctx).2, (sha1_hmac_finish ctx).1)
  | .hmac_reset => (sha1_hmac_reset ctx, [])

def sha1_step (ctx : sha1_context w) (call : sha1_call w) : Option (sha1_context w × List UInt8) := some (call.run ctx)

/-- What a context is for: the bytes to be digested once it has been started,
and a key once it has been given one. -/
structure digest_object where
  key : Option (List UInt8)
  message : Option (List UInt8)

/-- `none` for a call that comes too early. -/
def digest_object.step (object : digest_object) : sha1_call w → Option (digest_object × List UInt8)
  | .starts => some ({ object with message := some [] }, [])
  | .update input => object.message.map fun message => ({ object with message := some (message ++ input) }, [])
  | .finish => object.message.map fun message =>
    ({ object with message := some (message ++ padding message.length) }, sha1_standard.sha1 message)
  | .hmac_starts _ key => some ({ key := some key, message := some (inner_pad key) }, [])
  | .hmac_update input => object.message.map fun message => ({ object with message := some (message ++ input) }, [])
  | .hmac_finish => do
    let key ← object.key
    let message ← object.message
    let outer := outer_pad key ++ sha1_standard.sha1 message
    some ({ object with message := some (outer ++ padding outer.length) }, sha1_standard.sha1 outer)
  | .hmac_reset => object.key.map fun key => ({ object with message := some (inner_pad key) }, [])

structure sha1_context.Models (ctx : sha1_context w) (object : digest_object) : Prop where
  message : ∀ message ∈ object.message, ctx.Holds message
  pads : ∀ key ∈ object.key, ctx.ipad.toList = inner_pad key ∧ ctx.opad.toList = outer_pad key

theorem sha1_eq (hw : 32 ≤ w) (ctx : sha1_context w) {input : List UInt8} (hinput : input.length < 2 ^ 32) :
    sha1 ctx input = sha1_standard.sha1 input := by
  obtain ⟨hupdated, -⟩ := sha1_update_holds hw (sha1_starts_holds hw ctx) hinput
  rw [List.nil_append] at hupdated
  exact (sha1_finish_holds hw hupdated).1

/-- The padded key, byte by byte. -/
theorem xor_key_toList (pad : UInt8) {key : List UInt8} (h : key.length ≤ 64) :
    (xor_key pad key).toList = (key ++ List.replicate (64 - key.length) 0).map (pad ^^^ ·) := by
  rw [xor_key, Vector.toList_ofFn]
  apply List.ext_getElem
  · rw [List.length_ofFn, List.length_map, List.length_append, List.length_replicate]
    omega
  · intro i hi _
    rw [List.length_ofFn] at hi
    rw [List.getElem_ofFn, List.getElem_map]
    dsimp only
    split
    · rename_i hinside
      rw [List.getD_eq_getElem _ _ hinside, List.getElem_append_left]
    · rename_i hbehind
      rw [List.getElem_append_right (Nat.le_of_not_lt hbehind), List.getElem_replicate, UInt8.xor_zero]

/-- Starting with a pad, as both `sha1_hmac_starts` and `sha1_hmac_reset` do. -/
theorem starts_with_pad (hw : 32 ≤ w) (ctx : sha1_context w) (pad : Vector UInt8 64) :
    (sha1_update (sha1_starts ctx) pad.toList).Holds pad.toList ∧
      (sha1_update (sha1_starts ctx) pad.toList).ipad = ctx.ipad ∧
      (sha1_update (sha1_starts ctx) pad.toList).opad = ctx.opad := by
  have hlength : pad.toList.length < 2 ^ 32 := by
    rw [Vector.length_toList]
    decide
  obtain ⟨hholds, hipad, hopad⟩ := sha1_update_holds hw (sha1_starts_holds hw ctx) hlength
  exact ⟨hholds, hipad, hopad⟩

/-- `sha1_hmac_starts` takes the key and hashes its inner pad. -/
theorem sha1_hmac_starts_models (hw : 32 ≤ w) (ctx local_ctx : sha1_context w) {key : List UInt8}
    (hkey : key.length < 2 ^ 32) :
    (sha1_hmac_starts ctx local_ctx key).Models { key := some key, message := some (inner_pad key) } := by
  have hshort : (if 64 < key.length then sha1 local_ctx key else key) =
      if 64 < key.length then sha1_standard.sha1 key else key := by
    rw [sha1_eq hw local_ctx hkey]
  have hlength : (if 64 < key.length then sha1_standard.sha1 key else key).length ≤ 64 := by
    split
    · rw [sha1_length]
      decide
    · omega
  have hinner : (xor_key 0x36 (if 64 < key.length then sha1_standard.sha1 key else key)).toList = inner_pad key :=
    xor_key_toList 0x36 hlength
  have houter : (xor_key 0x5C (if 64 < key.length then sha1_standard.sha1 key else key)).toList = outer_pad key :=
    xor_key_toList 0x5C hlength
  rw [sha1_hmac_starts, hshort]
  generalize (if 64 < key.length then sha1_standard.sha1 key else key) = short at hinner houter
  rw [sha1_starts_ipad]
  obtain ⟨hholds, hipad, hopad⟩ :=
    starts_with_pad hw { ctx with ipad := xor_key 0x36 short, opad := xor_key 0x5C short }
    (xor_key 0x36 short)
  refine ⟨?_, ?_⟩
  · rintro message ⟨⟩
    exact hinner ▸ hholds
  · rintro key' ⟨⟩
    exact ⟨(congrArg Vector.toList hipad).trans hinner, (congrArg Vector.toList hopad).trans houter⟩

/-- `sha1_update` appends its input to the message. -/
theorem sha1_update_models (hw : 32 ≤ w) {ctx : sha1_context w} {object : digest_object} (h : ctx.Models object)
    {message input : List UInt8} (hmessage : message ∈ object.message) (hinput : input.length < 2 ^ 32) :
    (sha1_update ctx input).Models { object with message := some (message ++ input) } := by
  obtain ⟨hupdated, hipad, hopad⟩ := sha1_update_holds hw (h.message message hmessage) hinput
  refine ⟨?_, ?_⟩
  · rintro message' ⟨⟩
    exact hupdated
  · rw [hipad, hopad]
    exact h.pads

/-- `sha1_hmac_reset` starts again with the key it has. -/
theorem sha1_hmac_reset_models (hw : 32 ≤ w) {ctx : sha1_context w} {object : digest_object} (h : ctx.Models object)
    {key : List UInt8} (hkey : key ∈ object.key) :
    (sha1_hmac_reset ctx).Models { object with message := some (inner_pad key) } := by
  obtain ⟨hinner, -⟩ := h.pads key hkey
  obtain ⟨hholds, hipad, hopad⟩ := starts_with_pad hw ctx ctx.ipad
  rw [hinner] at hholds
  refine ⟨?_, ?_⟩
  · rintro message ⟨⟩
    rw [sha1_hmac_reset, hinner]
    exact hholds
  · intro key' hkey'
    rw [sha1_hmac_reset, hipad, hopad]
    exact h.pads key' hkey'

/-- `sha1_hmac_finish` hashes the message so far behind the outer pad. -/
theorem sha1_hmac_finish_models (hw : 32 ≤ w) {ctx : sha1_context w} {object : digest_object} (h : ctx.Models object)
    {key message : List UInt8} (hkey : key ∈ object.key) (hmessage : message ∈ object.message) :
    (sha1_hmac_finish ctx).1 = sha1_standard.sha1 (outer_pad key ++ sha1_standard.sha1 message) ∧
      (sha1_hmac_finish ctx).2.Models { object with
        message := some (outer_pad key ++ sha1_standard.sha1 message ++
          padding (outer_pad key ++ sha1_standard.sha1 message).length) } := by
  obtain ⟨hdigest, -, hipad, hopad⟩ := sha1_finish_holds hw (h.message message hmessage)
  obtain ⟨hinner, houter⟩ := h.pads key hkey
  obtain ⟨hstarted, hipad', hopad'⟩ := starts_with_pad hw (sha1_finish ctx).2 (sha1_finish ctx).2.opad
  have hlength : (sha1_finish ctx).1.length < 2 ^ 32 := by
    rw [hdigest, sha1_length]
    decide
  obtain ⟨hupdated, hipad'', hopad''⟩ := sha1_update_holds hw hstarted hlength
  obtain ⟨hfinished, hholds, hipad''', hopad'''⟩ := sha1_finish_holds hw hupdated
  have hpads : ∀ key' ∈ object.key, ((sha1_hmac_finish ctx).2.ipad.toList = inner_pad key' ∧
      (sha1_hmac_finish ctx).2.opad.toList = outer_pad key') := by
    rw [sha1_hmac_finish, hipad''', hipad'', hipad', hipad, hopad''', hopad'', hopad', hopad]
    exact h.pads
  have hbytes : (sha1_finish ctx).2.opad.toList ++ (sha1_finish ctx).1 =
      outer_pad key ++ sha1_standard.sha1 message := by
    rw [hopad, houter, hdigest]
  rw [hbytes] at hfinished hholds
  refine ⟨hfinished, ?_, hpads⟩
  rintro message' ⟨⟩
  exact hholds

/-- One call of the interface. -/
theorem sha1_step_follows (hw : 32 ≤ w) {ctx : sha1_context w} {object object' : digest_object} {call : sha1_call w}
    {output : List UInt8} (h : ctx.Models object) (hinput : call.input.length < 2 ^ 32)
    (hstep : object.step call = some (object', output)) :
    ∃ ctx', sha1_step ctx call = some (ctx', output) ∧ ctx'.Models object' := by
  cases call with
  | starts =>
    obtain ⟨rfl, rfl⟩ := Prod.mk.inj (Option.some.inj hstep)
    refine ⟨sha1_starts ctx, rfl, ?_, h.pads⟩
    rintro message ⟨⟩
    exact sha1_starts_holds hw ctx
  | update input =>
    obtain ⟨message, hmessage, hnext⟩ := Option.map_eq_some_iff.mp hstep
    obtain ⟨rfl, rfl⟩ := Prod.mk.inj hnext
    exact ⟨sha1_update ctx input, rfl, sha1_update_models hw h hmessage hinput⟩
  | finish =>
    obtain ⟨message, hmessage, hnext⟩ := Option.map_eq_some_iff.mp hstep
    obtain ⟨rfl, rfl⟩ := Prod.mk.inj hnext
    obtain ⟨hdigest, hholds, hipad, hopad⟩ := sha1_finish_holds hw (h.message message hmessage)
    refine ⟨(sha1_finish ctx).2, ?_, ?_, ?_⟩
    · rw [← hdigest]
      rfl
    · rintro message' ⟨⟩
      exact hholds
    · rw [hipad, hopad]
      exact h.pads
  | hmac_starts local_ctx key =>
    obtain ⟨rfl, rfl⟩ := Prod.mk.inj (Option.some.inj hstep)
    exact ⟨_, rfl, sha1_hmac_starts_models hw ctx local_ctx hinput⟩
  | hmac_update input =>
    obtain ⟨message, hmessage, hnext⟩ := Option.map_eq_some_iff.mp hstep
    obtain ⟨rfl, rfl⟩ := Prod.mk.inj hnext
    exact ⟨sha1_update ctx input, rfl, sha1_update_models hw h hmessage hinput⟩
  | hmac_finish =>
    obtain ⟨key, hkey, hstep⟩ := Option.bind_eq_some_iff.mp hstep
    obtain ⟨message, hmessage, hnext⟩ := Option.bind_eq_some_iff.mp hstep
    obtain ⟨rfl, rfl⟩ := Prod.mk.inj (Option.some.inj hnext)
    obtain ⟨hdigest, hmodels⟩ := sha1_hmac_finish_models hw h hkey hmessage
    refine ⟨(sha1_hmac_finish ctx).2, ?_, hmodels⟩
    rw [← hdigest]
    rfl
  | hmac_reset =>
    obtain ⟨key, hkey, hnext⟩ := Option.map_eq_some_iff.mp hstep
    obtain ⟨rfl, rfl⟩ := Prod.mk.inj hnext
    exact ⟨_, rfl, sha1_hmac_reset_models hw h hkey⟩

/-- `sha1_hmac` makes the keyed digest of the standard, whatever its two local
contexts hold and however wide an `unsigned long` is. -/
theorem sha1_hmac_keyed_digest (hw : 32 ≤ w) (ctx local_ctx : sha1_context w) {key input : List UInt8}
    (hkey : key.length < 2 ^ 32) (hinput : input.length < 2 ^ 32) :
    sha1_hmac ctx local_ctx key input = hmac key input := by
  have hstarted := sha1_hmac_starts_models hw ctx local_ctx hkey
  have hupdated := sha1_update_models hw hstarted rfl hinput
  exact (sha1_hmac_finish_models hw hupdated rfl rfl).1

/-- Nothing is known of a context that has not been started. -/
theorem models_nothing (ctx : sha1_context w) : ctx.Models { key := none, message := none } where
  message _ h := nomatch h
  pads _ h := nomatch h

/-- In whatever order the functions of `sha1.h` are called on a context, once
it has been started every output is the digest, or the keyed digest, that the
standard gives for the bytes of the calls since then. -/
theorem sha1_calls_follow_object (hw : 32 ≤ w) (ctx : sha1_context w) {trace : List (sha1_call w × List UInt8)}
    {object : digest_object}
    (run : Execution digest_object.step { key := none, message := none } trace object)
    (hinputs : ∀ entry ∈ trace, entry.1.input.length < 2 ^ 32) :
    ∃ ctx', Execution sha1_step ctx trace ctx' ∧ ctx'.Models object := by
  refine run.followed (fun call : sha1_call w => call.input.length < 2 ^ 32)
    (fun object (ctx : sha1_context w) => ctx.Models object) (models_nothing ctx) ?_ hinputs
  intro object ctx call object' output hmodels hinput hstep
  exact sha1_step_follows hw hmodels hinput hstep

/-- What a local variable happens to hold. -/
def leftover_context : sha1_context 64 where
  total0 := 7
  total1 := 3
  state := ⟨1, 2, 3, 4, 5⟩
  buffer := .replicate 64 9
  ipad := .replicate 64 8
  opad := .replicate 64 1

/-- A test of `sha1_self_test`: the key is `Jefe`. -/
example : sha1_hmac leftover_context leftover_context [74, 101, 102, 101]
    [119, 104, 97, 116, 32, 100, 111, 32, 121, 97, 32, 119, 97, 110, 116, 32, 102, 111, 114, 32, 110, 111, 116, 104,
      105, 110, 103, 63] =
    [0xEF, 0xFC, 0xDF, 0x6A, 0xE5, 0xEB, 0x2F, 0xA2, 0xD2, 0x74, 0x16, 0xD5, 0xF1, 0x84, 0xDF, 0x9C, 0x25, 0x9A, 0x7C,
      0x79] := by decide +kernel

/-- The object gives a keyed digest, and another one after a reset. -/
theorem digest_object_resets : Execution (digest_object.step (w := 64)) { key := none, message := none }
    [(.hmac_starts leftover_context [1], []), (.hmac_update [97], []),
      (.hmac_finish, sha1_standard.sha1 (outer_pad [1] ++ sha1_standard.sha1 (inner_pad [1] ++ [97]))),
      (.hmac_reset, [])]
    { key := some [1], message := some (inner_pad [1]) } :=
  (((Execution.nil.snoc rfl).snoc rfl).snoc rfl).snoc rfl

theorem sha1_calls_follow_object_reset :
    ∃ ctx', Execution sha1_step leftover_context
      [(.hmac_starts leftover_context [1], []), (.hmac_update [97], []),
        (.hmac_finish, sha1_standard.sha1 (outer_pad [1] ++ sha1_standard.sha1 (inner_pad [1] ++ [97]))),
        (.hmac_reset, [])] ctx' ∧
      ctx'.Models { key := some [1], message := some (inner_pad [1]) } :=
  sha1_calls_follow_object (by decide) leftover_context digest_object_resets (by simp [sha1_call.input])

end bismark_passive.polarssl
