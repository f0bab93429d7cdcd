import Litentry.Lib.Reach

/-!
# Bitacross: routing ceremony commands between handler threads

`bc-task-processor` hands each MuSig2 ceremony command to a thread of a pool
(`handle_ceremony_command`). A thread reads the ceremony's phase from `ceremony_registry`
and routes the command: it processes it (`process_command`), buffers it in
`ceremony_command_tmp` until the ceremony is ready for it, or drops it. Processing a
command may start a round; the thread then drains the buffer into its own work list. An
ended or failed ceremony is removed with its buffer, and a timeout thread drops both after
thirty seconds.

Each lock-protected section is one atomic step here: the read of the phase, the push to
the buffer, `process_command` on the registry, the drain or the removal after an event.
The MuSig2 rounds are kept as the signers heard from in each (`CeremonyRound`). A `World`
is the shared registry and buffer of one ceremony id with the handler threads working on
it; a step is a new command given to a thread, one step of one thread, or the timeout.

The routing aims at `Routed`: a nonce waits in the buffer only while there is no ceremony,
and a partial signature only while there is none or it is in its first round, so that the
next round start drains every buffered command. With one handler thread this holds in
every state between commands (`serial_routed`). With two it does not: a thread that has
read "no ceremony" for a nonce may push it after another thread created the ceremony and
drained the (then empty) buffer, and the nonce waits for a round start that needs it
(`routing_races`).
-/

set_option autoImplicit false

namespace Litentry
namespace Bitacross

/-- `CeremonyCommand` for one ceremony id; `InitCeremony` with its signers, ourselves among
    them, and without the payload. -/
inductive CeremonyCommand (S : Type) where
  | initCeremony (signers : List S)
  | saveNonce (signer : S)
  | savePartialSignature (signer : S)
  | killCeremony
  deriving DecidableEq, Repr

/-- The round of a `MuSig2Ceremony` with the signers whose contribution it holds:
    `first_round` is set in the first, `second_round` in the second, neither once ended. -/
inductive CeremonyRound (S : Type) where
  | first (received : List S)
  | second (received : List S)
  | ended
  deriving DecidableEq, Repr

/-- `MuSig2Ceremony`, with its rounds counted by contributions. -/
structure MuSig2Ceremony (S : Type) where
  signers : List S
  round : CeremonyRound S
  deriving DecidableEq, Repr

/-- `CeremonyEvent`, without what it carries to the peers. -/
inductive CeremonyEvent where
  | firstRoundStarted
  | secondRoundStarted
  | ceremonyEnded
  | ceremonyError
  deriving DecidableEq, Repr

/-- `CeremonyErrorReason`, for the errors of the rounds. -/
inductive CeremonyErrorReason where
  | signerNotFound
  | incorrectRound
  deriving DecidableEq, Repr

variable {S : Type}

namespace MuSig2Ceremony

/-- `is_first_round`. -/
def isFirstRound (c : MuSig2Ceremony S) : Bool :=
  match c.round with
  | .first _ => true
  | _ => false

/-- `MuSig2Ceremony::new`: at least three signers, ourselves among them; the first round
    holds our own nonce. -/
def new [DecidableEq S] (me : S) (signers : List S) : Option (MuSig2Ceremony S × CeremonyEvent) :=
  if signers.length < 3 then none
  else if me ∈ signers then some (⟨signers, .first [me]⟩, .firstRoundStarted)
  else none

/-- A round's contributions after one from `signer`; a repeated one changes nothing. -/
def contribute [DecidableEq S] (signer : S) (received : List S) : List S :=
  if signer ∈ received then received else signer :: received

/-- `is_complete` of a round: every signer heard. -/
def complete [DecidableEq S] (signers received : List S) : Bool := signers.all (· ∈ received)

/-- `receive_nonce`, then `start_second_round` with our partial signature once the first
    round is complete. -/
def receiveNonce [DecidableEq S] (me : S) (c : MuSig2Ceremony S) (signer : S) :
    Except CeremonyErrorReason (MuSig2Ceremony S × Option CeremonyEvent) :=
  if signer ∉ c.signers then .error .signerNotFound
  else
    match c.round with
    | .first received =>
      let received := contribute signer received
      if complete c.signers received then .ok (⟨c.signers, .second [me]⟩, some .secondRoundStarted)
      else .ok (⟨c.signers, .first received⟩, none)
    | _ => .error .incorrectRound

/-- `receive_partial_sign`, which ends the ceremony once the second round is complete. -/
def receivePartialSign [DecidableEq S] (c : MuSig2Ceremony S) (signer : S) :
    Except CeremonyErrorReason (MuSig2Ceremony S × Option CeremonyEvent) :=
  if signer ∉ c.signers then .error .signerNotFound
  else
    match c.round with
    | .second received =>
      let received := contribute signer received
      if complete c.signers received then .ok (⟨c.signers, .ended⟩, some .ceremonyEnded)
      else .ok (⟨c.signers, .second received⟩, none)
    | _ => .error .incorrectRound

end MuSig2Ceremony

/-- The shared state of one ceremony id: its `ceremony_registry` entry and its
    `ceremony_command_tmp` entry. -/
structure Shared (S : Type) where
  registry : Option (MuSig2Ceremony S)
  commandTmp : Option (List (CeremonyCommand S))
  deriving DecidableEq, Repr

/-- The ceremony and its buffered commands removed. -/
def Shared.removed : Shared S := ⟨none, none⟩

/-- A round's answer made an event: an error removes the ceremony (`CeremonyError`). -/
def withRound (sh : Shared S)
    (r : Except CeremonyErrorReason (MuSig2Ceremony S × Option CeremonyEvent)) :
    Shared S × Option CeremonyEvent :=
  match r with
  | .ok (c, event) => ({ sh with registry := some c }, event)
  | .error _ => (sh, some .ceremonyError)

/-- `process_command`, under the registry's lock. -/
def processCommand [DecidableEq S] (me : S) (sh : Shared S) : CeremonyCommand S → Shared S × Option CeremonyEvent
  | .initCeremony signers =>
    match MuSig2Ceremony.new me signers with
    | none => (sh, some .ceremonyError)
    | some (c, event) =>
      if sh.registry.isSome then (sh, some .ceremonyError)
      else ({ sh with registry := some c }, some event)
  | .saveNonce signer =>
    match sh.registry with
    | none => (sh, none)
    | some c => withRound sh (c.receiveNonce me signer)
  | .savePartialSignature signer =>
    match sh.registry with
    | none => (sh, none)
    | some c => withRound sh (c.receivePartialSign signer)
  | .killCeremony => (Shared.removed, none)

/-- Where a handler thread is in `handle_ceremony_command`. -/
inductive Handler (S : Type) where
  | received (command : CeremonyCommand S)
  | buffering (command : CeremonyCommand S)
  | processing (commandsToProcess : List (CeremonyCommand S))
  | handling (event : CeremonyEvent) (commandsToProcess : List (CeremonyCommand S))
  | finished
  deriving DecidableEq, Repr

/-- The routing `match` of `handle_ceremony_command` on the phase read and the command. -/
def route (isFirstRound : Option Bool) (command : CeremonyCommand S) : Handler S :=
  match isFirstRound, command with
  | none, .initCeremony _ => .processing [command]
  | some true, .saveNonce _ => .processing [command]
  | some false, .savePartialSignature _ => .processing [command]
  | _, .killCeremony => .processing [command]
  | none, .saveNonce _ => .buffering command
  | some true, .savePartialSignature _ => .buffering command
  | _, _ => .finished

/-- One locked section of a handler thread; `none` for a finished one. The work list is a
    `Vec` popped from its end, and a round start replaces it by the drained buffer. -/
def handlerStep [DecidableEq S] (me : S) (sh : Shared S) : Handler S → Option (Shared S × Handler S)
  | .received command => some (sh, route (sh.registry.map MuSig2Ceremony.isFirstRound) command)
  | .buffering command =>
    some ({ sh with commandTmp := some (sh.commandTmp.getD [] ++ [command]) }, .finished)
  | .processing commandsToProcess =>
    match commandsToProcess.getLast? with
    | none => some (sh, .finished)
    | some command =>
      let rest := commandsToProcess.dropLast
      match processCommand me sh command with
      | (sh, none) => some (sh, .processing rest)
      | (sh, some event) => some (sh, .handling event rest)
  | .handling event commandsToProcess =>
    match event with
    | .firstRoundStarted | .secondRoundStarted =>
      match sh.commandTmp with
      | some buffered => some ({ sh with commandTmp := none }, .processing buffered)
      | none => some (sh, .processing commandsToProcess)
    | .ceremonyEnded | .ceremonyError => some (Shared.removed, .processing commandsToProcess)
  | .finished => none

/-- The ceremony id's shared state and the threads of `command_threads_pool`, a finished
    thread being idle. -/
structure World (S : Type) where
  shared : Shared S
  handlers : List (Handler S)
  deriving DecidableEq, Repr

/-- A step of the system: the pool hands a command to idle thread `i`, thread `i` takes one
    step, or the timeout thread drops the ceremony or the buffered commands. -/
inductive Action (S : Type) where
  | request (i : Nat) (command : CeremonyCommand S)
  | run (i : Nat)
  | timeoutCeremony
  | timeoutCommands
  deriving DecidableEq, Repr

/-- A step of the system; only an idle thread takes a command, only a busy one steps. -/
def worldStep [DecidableEq S] (me : S) (w : World S) : Action S → Except Unit (World S)
  | .request i command =>
    if w.handlers[i]? = some .finished then
      .ok { w with handlers := w.handlers.set i (.received command) }
    else .error ()
  | .run i =>
    match w.handlers[i]? with
    | none => .error ()
    | some h =>
      match handlerStep me w.shared h with
      | none => .error ()
      | some (sh, h') => .ok ⟨sh, w.handlers.set i h'⟩
  | .timeoutCeremony => .ok { w with shared := { w.shared with registry := none } }
  | .timeoutCommands => .ok { w with shared := { w.shared with commandTmp := none } }

/-- `ThreadPool::new(ceremony_commands_thread_count)`: `n` idle threads, no ceremony and
    nothing buffered. -/
def World.initial (n : Nat) : World S := ⟨⟨none, none⟩, List.replicate n .finished⟩

/-- A thread done with its command, idle in the pool. -/
def Handler.isFinished : Handler S → Bool
  | .finished => true
  | _ => false

/-- Every thread of the pool is idle. -/
def World.idle (w : World S) : Bool := w.handlers.all Handler.isFinished

/-- The states of the system with a pool of `n` threads. -/
def Reachable [DecidableEq S] (me : S) (n : Nat) : World S → Prop :=
  Reach.Reachable (· = World.initial n) (worldStep me)

/-- Where a buffered command may wait so that a round start still drains it: a nonce while
    there is no ceremony, a partial signature while there is none or it is in its first
    round. -/
def Waits (registry : Option (MuSig2Ceremony S)) : CeremonyCommand S → Prop
  | .saveNonce _ => registry = none
  | .savePartialSignature _ => ∀ c, registry = some c → c.isFirstRound = true
  | _ => True

/-- What the routing is for: every buffered command waits where a round start drains it. -/
def Routed (sh : Shared S) : Prop := ∀ command ∈ sh.commandTmp.getD [], Waits sh.registry command

/-- What a thread's position keeps of `Routed` when it is the only thread: all of it,
    a command about to be buffered waiting where it goes, except between an event and its
    drain or removal. -/
def HandlerInv (sh : Shared S) : Handler S → Prop
  | .buffering command => Routed sh ∧ Waits sh.registry command
  | .handling _ _ => True
  | _ => Routed sh

/-! ## Routing with one thread -/

section Serial

@[simp] theorem waits_none (command : CeremonyCommand S) : Waits none command := by
  cases command <;> simp [Waits]

theorem routed_of_registry_none {sh : Shared S} (h : sh.registry = none) : Routed sh := by
  intro command _
  rw [h]
  exact waits_none command

theorem routed_of_commandTmp_none {sh : Shared S} (h : sh.commandTmp = none) : Routed sh := by
  intro command hmem
  simp [h] at hmem

/-- A buffered command keeps waiting on a ceremony that stays in its first round. -/
theorem Waits.of_isFirstRound {c c' : MuSig2Ceremony S} {command : CeremonyCommand S}
    (h : Waits (some c) command) (hfirst : c.isFirstRound = true → c'.isFirstRound = true) :
    Waits (some c') command := by
  cases command with
  | saveNonce s => simp [Waits] at h
  | savePartialSignature s =>
    intro c₀ hc₀
    cases hc₀
    exact hfirst (h c rfl)
  | initCeremony signers => trivial
  | killCeremony => trivial

/-- The routing match sends a command where it may wait. -/
theorem route_handlerInv {sh : Shared S} (hsh : Routed sh) (command : CeremonyCommand S) :
    HandlerInv sh (route (sh.registry.map MuSig2Ceremony.isFirstRound) command) := by
  cases hreg : sh.registry with
  | none => cases command <;> simp [route, HandlerInv, Waits, hreg, hsh]
  | some c =>
    cases hc : c.isFirstRound <;> cases command <;> simp [route, HandlerInv, Waits, hreg, hc, hsh]

theorem handlerInv_timeoutCeremony {sh : Shared S} {h : Handler S} (hinv : HandlerInv sh h) :
    HandlerInv { sh with registry := none } h := by
  cases h <;> simp [HandlerInv, routed_of_registry_none]

theorem handlerInv_timeoutCommands {sh : Shared S} {h : Handler S} (hinv : HandlerInv sh h) :
    HandlerInv { sh with commandTmp := none } h := by
  cases h with
  | buffering command => exact ⟨routed_of_commandTmp_none rfl, hinv.2⟩
  | handling event commandsToProcess => trivial
  | received command => exact routed_of_commandTmp_none rfl
  | processing commandsToProcess => exact routed_of_commandTmp_none rfl
  | finished => exact routed_of_commandTmp_none rfl

theorem World.not_handling_of_idle {w : World S} (h : w.idle = true) (event : CeremonyEvent)
    (commandsToProcess : List (CeremonyCommand S)) :
    Handler.handling event commandsToProcess ∉ w.handlers := fun hmem => by
  have hfin := List.all_eq_true.1 h _ hmem
  simp [Handler.isFinished] at hfin

variable [DecidableEq S] {me : S}

/-- A nonce that starts no round leaves the ceremony in its first round. -/
theorem receiveNonce_isFirstRound {c c' : MuSig2Ceremony S} {signer : S}
    (h : c.receiveNonce me signer = .ok (c', none)) : c'.isFirstRound = true := by
  unfold MuSig2Ceremony.receiveNonce at h
  split at h
  · cases h
  · split at h
    · dsimp only at h
      split at h
      · cases h
      · cases h
        rfl
    · cases h

/-- A partial signature is taken only in the second round. -/
theorem receivePartialSign_isFirstRound {c c' : MuSig2Ceremony S} {signer : S}
    {event : Option CeremonyEvent} (h : c.receivePartialSign signer = .ok (c', event)) :
    c.isFirstRound = false := by
  unfold MuSig2Ceremony.receivePartialSign at h
  split at h
  · cases h
  · split at h
    · simp [MuSig2Ceremony.isFirstRound, *]
    · cases h

/-- A command that starts no round keeps the buffer routed: it changes the ceremony only
    within its round, or removes it. -/
theorem processCommand_routed {sh : Shared S} (hsh : Routed sh) (command : CeremonyCommand S)
    (h : (processCommand me sh command).2 = none) : Routed (processCommand me sh command).1 := by
  cases command with
  | initCeremony signers =>
    -- an init always answers with an event
    simp only [processCommand] at h
    split at h
    · cases h
    · split at h <;> cases h
  | saveNonce signer =>
    cases hreg : sh.registry with
    | none => simpa [processCommand, hreg] using hsh
    | some c =>
      cases hr : c.receiveNonce me signer with
      | error e => simp [processCommand, hreg, hr, withRound] at h
      | ok r =>
        obtain ⟨c', event⟩ := r
        simp only [processCommand, hreg, hr, withRound] at h ⊢
        subst h
        intro command hmem
        have hw : Waits (some c) command := hreg ▸ hsh command hmem
        exact hw.of_isFirstRound fun _ => receiveNonce_isFirstRound hr
  | savePartialSignature signer =>
    cases hreg : sh.registry with
    | none => simpa [processCommand, hreg] using hsh
    | some c =>
      cases hr : c.receivePartialSign signer with
      | error e => simp [processCommand, hreg, hr, withRound] at h
      | ok r =>
        obtain ⟨c', event⟩ := r
        simp only [processCommand, hreg, hr, withRound]
        intro command hmem
        have hw : Waits (some c) command := hreg ▸ hsh command hmem
        -- the ceremony was past its first round, so nothing buffered waits on it
        exact hw.of_isFirstRound fun hc => by
          rw [receivePartialSign_isFirstRound hr] at hc
          cases hc
  | killCeremony => exact routed_of_registry_none rfl

/-- After an event the buffer is gone: drained at a round start, removed with the
    ceremony at its end or on an error. -/
theorem handlerStep_handling {sh sh' : Shared S} {h' : Handler S} {event : CeremonyEvent}
    {commandsToProcess : List (CeremonyCommand S)}
    (hstep : handlerStep me sh (.handling event commandsToProcess) = some (sh', h')) :
    sh'.commandTmp = none ∧ ∃ commands, h' = .processing commands := by
  cases event with
  | ceremonyEnded | ceremonyError =>
    simp only [handlerStep, Option.some.injEq, Prod.mk.injEq] at hstep
    obtain ⟨rfl, rfl⟩ := hstep
    exact ⟨rfl, _, rfl⟩
  | firstRoundStarted | secondRoundStarted =>
    cases htmp : sh.commandTmp with
    | some buffered =>
      simp only [handlerStep, htmp, Option.some.injEq, Prod.mk.injEq] at hstep
      obtain ⟨rfl, rfl⟩ := hstep
      exact ⟨rfl, _, rfl⟩
    | none =>
      simp only [handlerStep, htmp, Option.some.injEq, Prod.mk.injEq] at hstep
      obtain ⟨rfl, rfl⟩ := hstep
      exact ⟨htmp, _, rfl⟩

/-- One step of the only thread keeps its position's invariant. -/
theorem handlerStep_handlerInv {sh sh' : Shared S} {h h' : Handler S} (hinv : HandlerInv sh h)
    (hstep : handlerStep me sh h = some (sh', h')) : HandlerInv sh' h' := by
  cases h with
  | received command =>
    cases hstep
    exact route_handlerInv hinv command
  | buffering command =>
    cases hstep
    intro command' hmem
    simp only [Option.getD_some, List.mem_append, List.mem_singleton] at hmem
    rcases hmem with hold | rfl
    · exact hinv.1 command' hold
    · exact hinv.2
  | processing commandsToProcess =>
    simp only [handlerStep] at hstep
    split at hstep
    · cases hstep
      exact hinv
    · rename_i command _
      split at hstep
      · rename_i sh₁ hcmd
        cases hstep
        have hnone : (processCommand me sh command).2 = none := by rw [hcmd]
        have hrouted := processCommand_routed hinv command hnone
        rw [hcmd] at hrouted
        exact hrouted
      · cases hstep
        trivial
  | handling event commandsToProcess =>
    obtain ⟨htmp, commands, rfl⟩ := handlerStep_handling hstep
    exact routed_of_commandTmp_none htmp
  | finished => cases hstep

/-- A pool of one thread: that thread, and its position's invariant. -/
def SerialInv (w : World S) : Prop := ∃ h, w.handlers = [h] ∧ HandlerInv w.shared h

/-- **Step lemma.** A step of a pool of one thread keeps `SerialInv`. -/
theorem worldStep_serialInv {w w' : World S} {a : Action S} (hw : SerialInv w)
    (hstep : worldStep me w a = .ok w') : SerialInv w' := by
  obtain ⟨h, hhs, hinv⟩ := hw
  cases a with
  | request i command =>
    simp only [worldStep] at hstep
    split at hstep
    · rename_i hidle
      cases hstep
      -- the only idle thread is thread 0, and it was finished
      rw [hhs] at hidle ⊢
      cases i with
      | zero =>
        simp only [List.getElem?_cons_zero, Option.some.injEq] at hidle
        subst hidle
        exact ⟨.received command, rfl, hinv⟩
      | succ i => simp at hidle
    · cases hstep
  | run i =>
    simp only [worldStep, hhs] at hstep
    cases i with
    | zero =>
      simp only [List.getElem?_cons_zero] at hstep
      split at hstep
      · cases hstep
      · rename_i sh' h' hh
        cases hstep
        exact ⟨h', rfl, handlerStep_handlerInv hinv hh⟩
    | succ i => simp at hstep
  | timeoutCeremony =>
    cases hstep
    exact ⟨h, hhs, handlerInv_timeoutCeremony hinv⟩
  | timeoutCommands =>
    cases hstep
    exact ⟨h, hhs, handlerInv_timeoutCommands hinv⟩

/-- **Run lemma.** Every state of a pool of one thread satisfies `SerialInv`. -/
theorem Reachable.serialInv {w : World S} (hw : Reachable me 1 w) : SerialInv w :=
  Reach.Reachable.invariant
    (fun _ h₀ => h₀ ▸ ⟨.finished, rfl, routed_of_registry_none rfl⟩)
    (fun _ _ _ hw hstep => worldStep_serialInv hw hstep) hw

/-- With one handler thread the buffer is routed in every reachable state, except while
    the thread handles an event it has just taken from a command. -/
theorem serial_routed {w : World S} (hw : Reachable me 1 w)
    (hnot : ∀ event commandsToProcess, Handler.handling event commandsToProcess ∉ w.handlers) :
    Routed w.shared := by
  obtain ⟨h, hhs, hinv⟩ := hw.serialInv
  rw [hhs] at hnot
  cases h with
  | buffering command => exact hinv.1
  | handling event commandsToProcess => exact absurd (List.mem_singleton_self _) (hnot _ _)
  | received command => exact hinv
  | processing commandsToProcess => exact hinv
  | finished => exact hinv

/-- One thread: the nonce of 1 is buffered before the ceremony exists, drained by its
    first round start and taken into the round. -/
def serialRun : List (Action Nat) :=
  [.request 0 (.saveNonce 1), .run 0, .run 0, .request 0 (.initCeremony [0, 1, 2]),
    .run 0, .run 0, .run 0, .run 0, .run 0]

theorem serialRun_checks :
    Reach.runChecks (worldStep 0) (World.initial 1) serialRun
      (fun w => w.idle && w.shared == ⟨some ⟨[0, 1, 2], .first [1, 0]⟩, none⟩) = true := by
  decide

theorem serial_routed_after_serialRun : ∃ w : World Nat, Reachable 0 1 w ∧
    w.shared = ⟨some ⟨[0, 1, 2], .first [1, 0]⟩, none⟩ ∧ Routed w.shared := by
  obtain ⟨w, hw, hp⟩ : ∃ w : World Nat, Reachable 0 1 w ∧
      (w.idle && w.shared == ⟨some ⟨[0, 1, 2], .first [1, 0]⟩, none⟩) = true :=
    Reach.Reachable.of_runChecks rfl serialRun_checks
  simp only [Bool.and_eq_true, beq_iff_eq] at hp
  exact ⟨w, hw, hp.2, serial_routed hw (World.not_handling_of_idle hp.1)⟩

end Serial

/-! ## Routing with several threads -/

section Pool

/-- The same world with `k` more idle threads. -/
def World.pad (k : Nat) (w : World S) : World S :=
  ⟨w.shared, w.handlers ++ List.replicate k .finished⟩

theorem World.idle_pad {w : World S} (k : Nat) (h : w.idle = true) : (w.pad k).idle = true := by
  simp only [World.idle, World.pad, List.all_append, List.all_replicate] at h ⊢
  simp [h, Handler.isFinished]

theorem not_routed_of_saveNonce {sh : Shared S} {c : MuSig2Ceremony S} {signer : S}
    (hreg : sh.registry = some c) (hmem : .saveNonce signer ∈ sh.commandTmp.getD []) :
    ¬ Routed sh := fun h => by
  have hw := h _ hmem
  simp [Waits, hreg] at hw

theorem not_routed_of_savePartialSignature {sh : Shared S} {c : MuSig2Ceremony S} {signer : S}
    (hreg : sh.registry = some c) (hc : c.isFirstRound = false)
    (hmem : .savePartialSignature signer ∈ sh.commandTmp.getD []) : ¬ Routed sh := fun h => by
  have hw := h _ hmem c hreg
  rw [hc] at hw
  cases hw

variable [DecidableEq S] {me : S}

/-- Idle threads added to the pool change no step of the others. -/
theorem worldStep_pad {w w' : World S} {a : Action S} (k : Nat)
    (hstep : worldStep me w a = .ok w') : worldStep me (w.pad k) a = .ok (w'.pad k) := by
  cases a with
  | request i command =>
    simp only [worldStep] at hstep
    split at hstep
    · rename_i hidle
      cases hstep
      have hi : i < w.handlers.length := (List.getElem?_eq_some_iff.1 hidle).1
      simp [worldStep, World.pad, List.getElem?_append_left hi, hidle, List.set_append_left _ _ hi]
    · cases hstep
  | run i =>
    simp only [worldStep] at hstep
    split at hstep
    · cases hstep
    · rename_i h hh
      have hi : i < w.handlers.length := (List.getElem?_eq_some_iff.1 hh).1
      split at hstep
      · cases hstep
      · rename_i sh' h' hst
        cases hstep
        simp [worldStep, World.pad, List.getElem?_append_left hi, hh, hst,
          List.set_append_left _ _ hi]
  | timeoutCeremony =>
    cases hstep
    rfl
  | timeoutCommands =>
    cases hstep
    rfl

/-- A state of a pool is one of every larger pool, the added threads idle. -/
theorem Reachable.pad {n : Nat} {w : World S} (k : Nat) (hw : Reachable me n w) :
    Reachable me (n + k) (w.pad k) :=
  Reach.Reachable.simulate (World.pad k)
    (fun _ h₀ => by subst h₀; simp [World.pad, World.initial, List.replicate_append_replicate])
    (fun _ _ _ hst => Reach.Moves.single (worldStep_pad k hst)) hw

/-- A run of a pool of `m` threads that ends idle in `sh` is a run of every larger
    pool. -/
theorem exists_idle_of_runChecks {m n : Nat} (hmn : m ≤ n) {as : List (Action S)}
    {sh : Shared S}
    (h : Reach.runChecks (worldStep me) (World.initial m) as
      (fun w => w.idle && w.shared == sh) = true) :
    ∃ w, Reachable me n w ∧ w.idle = true ∧ w.shared = sh := by
  obtain ⟨w, hw, hp⟩ : ∃ w, Reachable me m w ∧ (w.idle && w.shared == sh) = true :=
    Reach.Reachable.of_runChecks rfl h
  simp only [Bool.and_eq_true, beq_iff_eq] at hp
  obtain ⟨k, rfl⟩ : ∃ k, n = m + k := ⟨n - m, by omega⟩
  exact ⟨w.pad k, Reachable.pad k hw, World.idle_pad k hp.1, hp.2⟩

/-- Thread 0 reads "no ceremony" for the nonce of signer 1; thread 1 creates the ceremony
    of signers `[0, 1, 2]`, drains the empty buffer and finishes; thread 0 buffers the
    nonce. -/
def nonceRace : List (Action Nat) :=
  [.request 0 (.saveNonce 1), .run 0, .request 1 (.initCeremony [0, 1, 2]),
    .run 1, .run 1, .run 1, .run 1, .run 0]

theorem nonceRace_checks :
    Reach.runChecks (worldStep 0) (World.initial 2) nonceRace
      (fun w => w.idle && w.shared == ⟨some ⟨[0, 1, 2], .first [0]⟩, some [.saveNonce 1]⟩) =
      true := by
  decide

/-- After the nonce of 1, thread 0 reads the first round for the partial signature of 1;
    thread 1 completes the round with the nonce of 2, drains the empty buffer and
    finishes; thread 0 buffers the partial signature. -/
def partialRace : List (Action Nat) :=
  [.request 0 (.initCeremony [0, 1, 2]), .run 0, .run 0, .run 0, .run 0,
    .request 0 (.saveNonce 1), .run 0, .run 0, .run 0,
    .request 0 (.savePartialSignature 1), .run 0,
    .request 1 (.saveNonce 2), .run 1, .run 1, .run 1, .run 1, .run 0]

theorem partialRace_checks :
    Reach.runChecks (worldStep 0) (World.initial 2) partialRace
      (fun w => w.idle && w.shared ==
        ⟨some ⟨[0, 1, 2], .second [0]⟩, some [.savePartialSignature 1]⟩) = true := by
  decide

/-- With two threads or more, a nonce can be left buffered beside the ceremony's first
    round, and a partial signature beside its second, with every thread idle: no round
    start is left to drain either. -/
theorem routing_races (n : Nat) (hn : 2 ≤ n) :
    (∃ w : World Nat, Reachable 0 n w ∧ w.idle = true ∧ ¬ Routed w.shared ∧
      w.shared = ⟨some ⟨[0, 1, 2], .first [0]⟩, some [.saveNonce 1]⟩) ∧
    (∃ w : World Nat, Reachable 0 n w ∧ w.idle = true ∧ ¬ Routed w.shared ∧
      w.shared = ⟨some ⟨[0, 1, 2], .second [0]⟩, some [.savePartialSignature 1]⟩) := by
  obtain ⟨w₁, hw₁, hidle₁, hsh₁⟩ := exists_idle_of_runChecks hn nonceRace_checks
  obtain ⟨w₂, hw₂, hidle₂, hsh₂⟩ := exists_idle_of_runChecks hn partialRace_checks
  refine ⟨⟨w₁, hw₁, hidle₁, ?_, hsh₁⟩, ⟨w₂, hw₂, hidle₂, ?_, hsh₂⟩⟩
  · exact not_routed_of_saveNonce (by rw [hsh₁])
      (show CeremonyCommand.saveNonce 1 ∈ _ by simp [hsh₁])
  · exact not_routed_of_savePartialSignature (by rw [hsh₂]) rfl
      (show CeremonyCommand.savePartialSignature 1 ∈ _ by simp [hsh₂])

/-- The default pool, `ceremony-commands-thread-count` of 4, races. -/
theorem routing_races_default_pool :
    2 ≤ 4 ∧
    (∃ w : World Nat, Reachable 0 4 w ∧ w.idle = true ∧ ¬ Routed w.shared ∧
      w.shared = ⟨some ⟨[0, 1, 2], .first [0]⟩, some [.saveNonce 1]⟩) ∧
    (∃ w : World Nat, Reachable 0 4 w ∧ w.idle = true ∧ ¬ Routed w.shared ∧
      w.shared = ⟨some ⟨[0, 1, 2], .second [0]⟩, some [.savePartialSignature 1]⟩) :=
  ⟨by decide, routing_races 4 (by decide)⟩

end Pool

end Bitacross
end Litentry
