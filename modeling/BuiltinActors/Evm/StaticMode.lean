import BuiltinActors.Evm.Instructions
import BuiltinActors.Lib.Run
import BuiltinActors.Lib.Except

/-! # Static mode

A read-only system (EIP-214's static mode) must leave the contract as it
found it. The instructions that would change it, SSTORE, TSTORE, LOG,
CREATE, CREATE2 and SELFDESTRUCT, check the flag themselves, and so does a
CALL that sends value; the system's setters do not. What else reaches the
system goes through a send, whose flush has nothing to save while the
contract is unchanged and whose reload is skipped.

`System.persistent` is what must not change: the contract's state, its save
status, and the events and state roots given to the runtime. The step lemma
`persistent_exec` takes one instruction apart, each of its calls by its own
lemma; `persistent_of_reachable` carries it along every run. Apart from that,
a STATICCALL sends only read-only messages without value. -/

namespace BuiltinActors.Evm

/-- What a read-only execution leaves as it was. -/
structure Persistent where
  bytecode : Option EvmBytecode
  slots : OrdMap Nat U256
  transientSlots : OrdMap Nat U256
  nonce : Nat
  tombstone : Option Tombstone
  savedStateRoot : Option Cid
  readonly : Bool
  events : List ActorEvent
  stateRoots : List Cid

/-- The system's persistent state, its save status and what it gave the runtime
to keep; only the messages sent and the cached randomness are left out. -/
def System.persistent (sys : System) : Persistent :=
  ⟨sys.bytecode, sys.slots, sys.transientSlots, sys.nonce, sys.tombstone, sys.savedStateRoot,
    sys.readonly, sys.events, sys.stateRoots⟩

namespace System

variable (env : Env) {sys sys' : System}

/-- A read-only flush saves nothing: it succeeds only when there is nothing to save. -/
theorem flush_eq_self_of_readonly (hro : sys.readonly = true) (h : sys.flush env = .ok sys') :
    sys' = sys := by
  unfold flush at h
  by_cases hs : sys.savedStateRoot.isSome
  · rw [if_pos hs] at h
    exact (Except.pure_eq_ok.mp h).symm
  · rw [if_neg hs, if_pos hro] at h
    exact absurd h Except.throw_ne_ok

theorem reload_of_readonly (hro : sys.readonly = true) : sys.reload env = .ok sys := by
  simp [reload, hro, pure, Except.pure]

/-- A read-only send leaves what persists, whatever the callee answers. -/
theorem persistent_sendRaw (hro : sys.readonly = true) {m : SentMessage} {r}
    (h : sys.sendRaw env m = (sys', r)) : sys'.persistent = sys.persistent := by
  unfold sendRaw at h
  split at h
  · cases h
    rfl
  · rename_i sys₁ hf
    rw [flush_eq_self_of_readonly env hro hf] at h
    have hro' : (sys.rtSend env m).1.readonly = true := hro
    simp only [reload_of_readonly env hro'] at h
    split at h <;> (try split at h) <;> cases h <;> rfl

theorem persistent_send (hro : sys.readonly = true) {m : SentMessage} {r}
    (h : sys.send env m = (sys', r)) : sys'.persistent = sys.persistent := by
  rcases hs : sys.sendRaw env m with ⟨s, r'⟩
  simp only [send, hs] at h
  split at h <;> (try split at h) <;> cases h <;> exact persistent_sendRaw env hro hs

theorem persistent_transfer (dest : FilAddress) (value : Int) :
    (sys.transfer env dest value).1.persistent = sys.persistent := by
  simp only [transfer]
  split <;> (try split) <;> rfl

theorem persistent_getRandomness {r : U256} (h : sys.getRandomness env = .ok (sys', r)) :
    sys'.persistent = sys.persistent := by
  unfold getRandomness at h
  split at h
  · obtain ⟨rfl, -⟩ := Except.pure_pair_eq_ok h
    rfl
  · obtain ⟨r', -, h⟩ := Except.bind_eq_ok.mp h
    obtain ⟨rfl, -⟩ := Except.pure_pair_eq_ok h
    rfl

end System

variable (env : Env) {sys sys' : System}

theorem persistent_getEvmBytecodeCid (hro : sys.readonly = true) {addr : FilAddress}
    {cid : Option Cid} (h : getEvmBytecodeCid env sys addr = .ok (sys', cid)) :
    sys'.persistent = sys.persistent := by
  rcases hs : sys.send env ⟨addr, methodGetBytecode, 0, none, .readOnlyFlags⟩ with ⟨s, r⟩
  simp only [getEvmBytecodeCid, hs] at h
  split at h
  · exact absurd h Except.throw_ne_ok
  · obtain ⟨c, -, h⟩ := Except.bind_eq_ok.mp h
    obtain ⟨rfl, -⟩ := Except.pure_pair_eq_ok h
    exact System.persistent_send env hro hs

theorem persistent_getEvmBytecode (hro : sys.readonly = true) {addr : FilAddress}
    {bytecode : List UInt8} (h : getEvmBytecode env sys addr = .ok (sys', bytecode)) :
    sys'.persistent = sys.persistent := by
  obtain ⟨⟨s, cid⟩, hcid, h⟩ := Except.bind_eq_ok.mp h
  have hs := persistent_getEvmBytecodeCid env hro hcid
  simp only at h
  split at h
  · split at h
    · obtain ⟨rfl, -⟩ := Except.pure_pair_eq_ok h
      exact hs
    · exact absurd h Except.throw_ne_ok
  · obtain ⟨rfl, -⟩ := Except.pure_pair_eq_ok h
    exact hs

/-- `call_actor` may send any message, but only through `send_raw`. -/
theorem persistent_callActorShared (hro : sys.readonly = true) {input : List UInt8}
    {ctx : PrecompileContext} {byId : Bool} {r}
    (h : callActorShared env sys input ctx byId = (sys', r)) : sys'.persistent = sys.persistent := by
  unfold callActorShared at h
  repeat' split at h
  all_goals try (cases h; rfl)
  all_goals
    rename_i hs
    cases h
    exact System.persistent_sendRaw env hro hs

theorem persistent_runPrecompile (hro : sys.readonly = true) {p : Precompile} {input : List UInt8}
    {ctx : PrecompileContext} {r}
    (h : runPrecompile env sys p input ctx = (sys', r)) : sys'.persistent = sys.persistent := by
  unfold runPrecompile at h
  split at h
  · exact persistent_callActorShared env hro h
  · exact persistent_callActorShared env hro h
  · cases h
    rfl

theorem persistent_callPrecompile (hro : sys.readonly = true) {a : EthAddress} {input : List UInt8}
    {ctx : PrecompileContext} {r}
    (h : callPrecompile env sys a input ctx = (sys', r)) : sys'.persistent = sys.persistent := by
  unfold callPrecompile at h
  cases hl : lookupPrecompile a with
  | none =>
    simp only [hl] at h
    repeat' split at h
    all_goals cases h
    all_goals first
      | rfl
      | exact System.persistent_transfer env _ _
  | some p =>
    rcases hr : runPrecompile env sys p input ctx with ⟨s, res⟩
    have hs := persistent_runPrecompile env hro hr
    simp only [hl, hr] at h
    repeat' split at h
    all_goals cases h
    all_goals first
      | exact hs
      | exact (System.persistent_transfer env _ _).trans hs

theorem persistent_callContract (hro : sys.readonly = true) {kind : CallKind} {gas : U256}
    {dst : EthAddress} {value : U256} {out}
    (h : callContract env sys kind gas dst value = .ok (sys', out)) :
    sys'.persistent = sys.persistent := by
  unfold callContract at h
  split at h
  case h_1 | h_2 =>
    dsimp only at h
    obtain ⟨r, -, h⟩ := Except.bind_eq_ok.mp h
    obtain ⟨rfl, -⟩ := Except.pure_pair_eq_ok h
    exact System.persistent_sendRaw env hro rfl
  case h_3 =>
    split at h
    · obtain ⟨⟨s, code⟩, hcid, h⟩ := Except.bind_eq_ok.mp h
      have hs := persistent_getEvmBytecodeCid env hro hcid
      have hro' : s.readonly = true := (congrArg Persistent.readonly hs).trans hro
      dsimp only at h
      split at h
      · obtain ⟨rfl, -⟩ := Except.pure_pair_eq_ok h
        exact (System.persistent_send env hro' rfl).trans hs
      · obtain ⟨rfl, -⟩ := Except.pure_pair_eq_ok h
        exact hs
    all_goals
      obtain ⟨rfl, -⟩ := Except.pure_pair_eq_ok h
      rfl

theorem persistent_callDestination (hro : sys.readonly = true) {kind : CallKind}
    {gas value code : U256} {dst : EthAddress} {input data : List UInt8}
    (h : callDestination env sys kind gas dst value input = .ok (sys', code, data)) :
    sys'.persistent = sys.persistent := by
  unfold callDestination at h
  split at h
  · split at h
    all_goals
      rename_i hp
      obtain ⟨rfl, -⟩ := Except.pure_pair_eq_ok h
      exact persistent_callPrecompile env hro hp
  · obtain ⟨⟨s, outcome⟩, hc, h⟩ := Except.bind_eq_ok.mp h
    dsimp only at h
    obtain ⟨rfl, -⟩ := Except.pure_pair_eq_ok h
    exact persistent_callContract env hro hc

theorem persistent_callGeneric (hro : sys.readonly = true) {state state' : ExecutionState}
    {kind : CallKind} {gas dst value inputOffset inputSize outputOffset outputSize r : U256}
    (h : callGeneric env sys state kind gas dst value inputOffset inputSize outputOffset outputSize =
      .ok (sys', state', r)) :
    sys'.persistent = sys.persistent := by
  unfold callGeneric at h
  split at h
  · exact absurd h Except.throw_ne_ok
  obtain ⟨⟨memory, region⟩, -, h⟩ := Except.bind_eq_ok.mp h
  dsimp only at h
  obtain ⟨input, -, h⟩ := Except.bind_eq_ok.mp h
  obtain ⟨⟨s, code, data⟩, hd, h⟩ := Except.bind_eq_ok.mp h
  dsimp only at h
  obtain ⟨memory', -, h⟩ := Except.bind_eq_ok.mp h
  obtain ⟨rfl, -⟩ := Except.pure_pair_eq_ok h
  exact persistent_callDestination env hro hd

theorem persistent_extcodesize (hro : sys.readonly = true) {addr size : U256}
    (h : extcodesize env sys addr = .ok (sys', size)) : sys'.persistent = sys.persistent := by
  unfold extcodesize at h
  split at h
  · obtain ⟨⟨s, bytecode⟩, hb, h⟩ := Except.bind_eq_ok.mp h
    obtain ⟨rfl, -⟩ := Except.pure_pair_eq_ok h
    exact persistent_getEvmBytecode env hro hb
  all_goals
    obtain ⟨rfl, -⟩ := Except.pure_pair_eq_ok h
    rfl

theorem persistent_extcodehash (hro : sys.readonly = true) {addr hash : U256}
    (h : extcodehash env sys addr = .ok (sys', hash)) : sys'.persistent = sys.persistent := by
  unfold extcodehash at h
  split at h
  · dsimp only at h
    split at h
    · exact absurd h Except.throw_ne_ok
    · obtain ⟨hash', -, h⟩ := Except.bind_eq_ok.mp h
      obtain ⟨rfl, -⟩ := Except.pure_pair_eq_ok h
      exact System.persistent_send env hro rfl
  all_goals
    obtain ⟨rfl, -⟩ := Except.pure_pair_eq_ok h
    rfl

theorem persistent_extcodecopy (hro : sys.readonly = true) {state state' : ExecutionState}
    {addr destOffset dataOffset size : U256}
    (h : extcodecopy env sys state addr destOffset dataOffset size = .ok (sys', state')) :
    sys'.persistent = sys.persistent := by
  unfold extcodecopy at h
  obtain ⟨⟨s, bytecode⟩, hb, h⟩ := Except.bind_eq_ok.mp h
  dsimp only at h
  obtain ⟨memory, -, h⟩ := Except.bind_eq_ok.mp h
  obtain ⟨rfl, -⟩ := Except.pure_pair_eq_ok h
  split at hb
  · exact persistent_getEvmBytecode env hro hb
  all_goals
    obtain ⟨rfl, -⟩ := Except.pure_pair_eq_ok hb
    rfl

/-! ## The guards -/

section Guards

variable (hro : sys.readonly = true) (state : ExecutionState)
include hro

-- Each guard takes its instruction's arm of `Instruction.exec` by reduction
-- (`show`), so that the equations of the whole match are not generated.

theorem exec_sstore_of_readonly (key value : U256) :
    Instruction.exec env (sys, state) (.sstore key value) =
      .error (.readOnly "store called while read-only") := by
  show Evm.sstore sys key value >>= _ = _
  rw [sstore, if_pos hro]
  rfl

theorem exec_tstore_of_readonly (key value : U256) :
    Instruction.exec env (sys, state) (.tstore key value) =
      .error (.readOnly "store called while read-only") := by
  show Evm.tstore sys key value >>= _ = _
  rw [tstore, if_pos hro]
  rfl

theorem exec_log_of_readonly (topics : List U256) (memIndex size : U256) :
    Instruction.exec env (sys, state) (.log topics memIndex size) =
      .error (.readOnly "log called while read-only") := by
  show Evm.log env sys state topics memIndex size >>= _ = _
  rw [log, if_pos hro]
  rfl

theorem exec_create_of_readonly (endowment offset size : U256) :
    Instruction.exec env (sys, state) (.create endowment offset size) =
      .error (.readOnly "create called while read-only") := by
  show Evm.create env sys state endowment offset size >>= _ = _
  rw [create, if_pos hro]
  rfl

theorem exec_create2_of_readonly (endowment offset size salt : U256) :
    Instruction.exec env (sys, state) (.create2 endowment offset size salt) =
      .error (.readOnly "create2 called while read-only") := by
  show Evm.create2 env sys state endowment offset size salt >>= _ = _
  rw [create2, if_pos hro]
  rfl

theorem exec_selfdestruct_of_readonly (beneficiary : U256) :
    Instruction.exec env (sys, state) (.selfdestruct beneficiary) =
      .error (.readOnly "selfdestruct called while read-only") := by
  show Evm.selfdestruct env sys beneficiary >>= _ = _
  rw [selfdestruct, if_pos hro]
  rfl

theorem exec_call_of_readonly {value : U256} (hvalue : value ≠ 0)
    (gas dst inputOffset inputSize outputOffset outputSize : U256) :
    Instruction.exec env (sys, state)
        (.call gas dst value inputOffset inputSize outputOffset outputSize) =
      .error (.readOnly "cannot transfer value when read-only") := by
  have hpos : 0 < value := by
    rw [BitVec.lt_def]
    exact Nat.pos_of_ne_zero fun h => hvalue (BitVec.eq_of_toNat_eq h)
  show callGeneric env sys state .call gas dst value inputOffset inputSize outputOffset
    outputSize >>= _ = _
  rw [callGeneric, if_pos ⟨hro, hpos⟩]
  rfl

end Guards

/-! ## Runs -/

/-- The step lemma: in read-only mode no instruction changes what persists. -/
theorem persistent_exec (hro : sys.readonly = true) {state : ExecutionState} {i : Instruction}
    {p : System × ExecutionState} {out : Option U256}
    (h : Instruction.exec env (sys, state) i = .ok (p, out)) : p.1.persistent = sys.persistent := by
  cases i with
  | sstore key value => simp [exec_sstore_of_readonly env hro] at h
  | tstore key value => simp [exec_tstore_of_readonly env hro] at h
  | log topics memIndex size => simp [exec_log_of_readonly env hro] at h
  | create endowment offset size => simp [exec_create_of_readonly env hro] at h
  | create2 endowment offset size salt => simp [exec_create2_of_readonly env hro] at h
  | selfdestruct beneficiary => simp [exec_selfdestruct_of_readonly env hro] at h
  | sload location | tload location =>
    obtain ⟨rfl, -⟩ := Except.pure_pair_eq_ok h
    rfl
  | call gas dst value inputOffset inputSize outputOffset outputSize
  | delegatecall gas dst inputOffset inputSize outputOffset outputSize
  | staticcall gas dst inputOffset inputSize outputOffset outputSize =>
    obtain ⟨⟨s, state', r⟩, hc, h⟩ := Except.bind_eq_ok.mp h
    obtain ⟨rfl, -⟩ := Except.pure_pair_eq_ok h
    exact persistent_callGeneric env hro hc
  | extcodesize addr | extcodehash addr =>
    obtain ⟨⟨s, r⟩, hc, h⟩ := Except.bind_eq_ok.mp h
    obtain ⟨rfl, -⟩ := Except.pure_pair_eq_ok h
    first
      | exact persistent_extcodesize env hro hc
      | exact persistent_extcodehash env hro hc
  | extcodecopy addr destOffset dataOffset size =>
    obtain ⟨⟨s, state'⟩, hc, h⟩ := Except.bind_eq_ok.mp h
    obtain ⟨rfl, -⟩ := Except.pure_pair_eq_ok h
    exact persistent_extcodecopy env hro hc
  | prevrandao =>
    obtain ⟨⟨s, r⟩, hc, h⟩ := Except.bind_eq_ok.mp h
    obtain ⟨rfl, -⟩ := Except.pure_pair_eq_ok h
    exact System.persistent_getRandomness env hc
  | other f =>
    obtain ⟨state', -, h⟩ := Except.bind_eq_ok.mp h
    obtain ⟨rfl, -⟩ := Except.pure_pair_eq_ok h
    rfl

/-- The run lemma: every state reached from a read-only system keeps what
persists. -/
theorem persistent_of_reachable {sys₀ : System} {state₀ : ExecutionState} (hro : sys₀.readonly = true)
    {p : System × ExecutionState}
    (h : Run.Reachable (Instruction.exec env) (· = (sys₀, state₀)) p) :
    p.1.persistent = sys₀.persistent := by
  refine @Run.Reachable.rec_inv _ _ _ _ _ _ (fun p => p.1.persistent = sys₀.persistent)
    (fun p hp => hp ▸ rfl) (fun p i p' out hp hstep => ?_) p h
  have hro' : p.1.readonly = true := (congrArg Persistent.readonly hp).trans hro
  exact (persistent_exec env hro' hstep).trans hp

/-! ## The messages a call sends -/

/-- `t` has sent what `s` had sent, then only messages with `P`. -/
def SendsOnly (P : SentMessage → Prop) (s t : System) : Prop :=
  ∃ new, t.sent = s.sent ++ new ∧ ∀ m ∈ new, P m

theorem SendsOnly.of_sent_eq {P : SentMessage → Prop} {s t : System} (h : t.sent = s.sent) :
    SendsOnly P s t :=
  ⟨[], by simp [h], by simp⟩

theorem SendsOnly.mono {P Q : SentMessage → Prop} {s t : System} (hPQ : ∀ m, P m → Q m)
    (h : SendsOnly P s t) : SendsOnly Q s t := by
  obtain ⟨new, hsent, hnew⟩ := h
  exact ⟨new, hsent, fun m hm => hPQ m (hnew m hm)⟩

namespace System

theorem sent_setBytecode (bytecode : List UInt8) : (sys.setBytecode env bytecode).1.sent = sys.sent := by
  unfold setBytecode
  split <;> (try split) <;> rfl

theorem sent_flush (h : sys.flush env = .ok sys') : sys'.sent = sys.sent := by
  unfold flush at h
  split at h
  · rw [Except.pure_eq_ok.mp h]
  split at h
  · exact absurd h Except.throw_ne_ok
  obtain ⟨⟨s, b⟩, hb, h⟩ := Except.bind_eq_ok.mp h
  dsimp only at h
  rw [← Except.pure_eq_ok.mp h]
  split at hb
  · obtain ⟨rfl, -⟩ := Except.pure_pair_eq_ok hb
    rfl
  · obtain ⟨b', -, hb⟩ := Except.map_eq_ok.mp hb
    obtain ⟨rfl, -⟩ := Prod.mk.inj hb.symm
    exact sent_setBytecode env []

theorem sent_reload (h : sys.reload env = .ok sys') : sys'.sent = sys.sent := by
  unfold reload at h
  split at h
  · rw [Except.pure_eq_ok.mp h]
  dsimp only at h
  split at h
  · rw [Except.pure_eq_ok.mp h]
  split at h
  · exact absurd h Except.throw_ne_ok
  · rw [← Except.pure_eq_ok.mp h]

/-- `send_raw` sends its message at most once, and nothing else. -/
theorem sendsOnly_sendRaw {m : SentMessage} {r} (h : sys.sendRaw env m = (sys', r)) :
    SendsOnly (· = m) sys sys' := by
  unfold sendRaw at h
  split at h
  · cases h
    exact SendsOnly.of_sent_eq rfl
  rename_i s hf
  have hsend : ∀ {s' r'}, s.rtSend env m = (s', r') → SendsOnly (· = m) sys s' := by
    intro s' r' hs'
    simp only [rtSend, Prod.mk.injEq] at hs'
    rw [← hs'.1]
    exact ⟨[m], by rw [sent_flush env hf], by simp⟩
  repeat' split at h
  all_goals cases h
  all_goals first
    | exact hsend ‹_›
    | obtain ⟨new, hsent, hnew⟩ := hsend ‹_›
      exact ⟨new, (sent_reload env ‹_›).trans hsent, hnew⟩

end System

/-- A message a STATICCALL may send: read-only, with no value. -/
def StaticSend (m : SentMessage) : Prop := m.flags = .readOnlyFlags ∧ m.value = 0

theorem runPrecompile_fst_of_ne_delegateCall {p : Precompile} {input : List UInt8}
    {ctx : PrecompileContext} (hkind : ctx.callType ≠ .delegateCall) :
    (runPrecompile env sys p input ctx).1 = sys := by
  unfold runPrecompile
  split <;> simp [callActorShared, hkind]

/-- A precompile reached otherwise than by DELEGATECALL, with no value, sends
nothing. -/
theorem callPrecompile_fst_of_ne_delegateCall {a : EthAddress} {input : List UInt8}
    {ctx : PrecompileContext} (hkind : ctx.callType ≠ .delegateCall) (hvalue : ctx.value = 0) {r}
    (h : callPrecompile env sys a input ctx = (sys', r)) : sys' = sys := by
  unfold callPrecompile at h
  cases hl : lookupPrecompile a with
  | none =>
    simp only [hl, hvalue] at h
    cases h
    rfl
  | some p =>
    rcases hr : runPrecompile env sys p input ctx with ⟨s, res⟩
    have hs : s = sys := by
      rw [← @runPrecompile_fst_of_ne_delegateCall env sys _ _ _ hkind, hr]
    simp only [hl, hr, hvalue] at h
    split at h <;> cases h <;> exact hs

theorem sendsOnly_callContract_staticCall {gas : U256} {dst : EthAddress} {out}
    (h : callContract env sys .staticCall gas dst 0 = .ok (sys', out)) :
    SendsOnly StaticSend sys sys' := by
  unfold callContract at h
  dsimp only at h
  obtain ⟨r, -, h⟩ := Except.bind_eq_ok.mp h
  obtain ⟨rfl, -⟩ := Except.pure_pair_eq_ok h
  refine SendsOnly.mono ?_ (System.sendsOnly_sendRaw env rfl)
  intro m hm
  rw [hm]
  exact ⟨rfl, rfl⟩

theorem sendsOnly_callDestination_staticCall {gas code : U256} {dst : EthAddress}
    {input data : List UInt8} (h : callDestination env sys .staticCall gas dst 0 input = .ok (sys', code, data)) :
    SendsOnly StaticSend sys sys' := by
  unfold callDestination at h
  split at h
  · split at h
    all_goals
      rename_i hp
      obtain ⟨rfl, -⟩ := Except.pure_pair_eq_ok h
      exact SendsOnly.of_sent_eq
        (congrArg System.sent (callPrecompile_fst_of_ne_delegateCall env (by simp) rfl hp))
  · obtain ⟨⟨s, outcome⟩, hc, h⟩ := Except.bind_eq_ok.mp h
    dsimp only at h
    obtain ⟨rfl, -⟩ := Except.pure_pair_eq_ok h
    exact sendsOnly_callContract_staticCall env hc

theorem sendsOnly_exec_staticcall {state state' : ExecutionState}
    {gas dst inputOffset inputSize outputOffset outputSize : U256} {out : Option U256}
    (h : Instruction.exec env (sys, state)
      (.staticcall gas dst inputOffset inputSize outputOffset outputSize) = .ok ((sys', state'), out)) :
    SendsOnly StaticSend sys sys' := by
  obtain ⟨⟨s, state'', r⟩, hc, h⟩ := Except.bind_eq_ok.mp h
  obtain ⟨rfl, -⟩ := Prod.mk.inj (Prod.mk.inj (Except.pure_eq_ok.mp h)).1.symm
  unfold callGeneric at hc
  split at hc
  · exact absurd hc Except.throw_ne_ok
  obtain ⟨⟨memory, region⟩, -, hc⟩ := Except.bind_eq_ok.mp hc
  dsimp only at hc
  obtain ⟨input, -, hc⟩ := Except.bind_eq_ok.mp hc
  obtain ⟨⟨s', code, data⟩, hd, hc⟩ := Except.bind_eq_ok.mp hc
  dsimp only at hc
  obtain ⟨memory', -, hc⟩ := Except.bind_eq_ok.mp hc
  obtain ⟨rfl, -⟩ := Except.pure_pair_eq_ok hc
  exact sendsOnly_callDestination_staticCall env hd

/-! ## Static mode -/

end BuiltinActors.Evm
