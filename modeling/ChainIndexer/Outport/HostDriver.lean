import Mathlib.Data.List.Basic

/-! # The outport host driver

Every action of `hostDriver` is `handleAction` at its own topic: refused once
the driver is closed, otherwise marshalled and sent through the sender host.
`Close` raises the `isClosed` flag and closes the sender host.
-/
namespace ChainIndexer.Outport

structure Topics where
  saveBlock : String
  revertIndexedBlock : String
  saveRoundsInfo : String
  saveValidatorsPubKeys : String
  saveValidatorsRating : String
  saveAccounts : String
  finalizedBlock : String
  settings : String

inductive SenderCall where
  | send (payload : List UInt8) (topic : String)
  | close
  deriving DecidableEq, Repr

/-- The `SenderHost` methods the driver calls; the host is outside this excerpt,
so its state `ς` and its answers are parameters. An error is its `Error()` text. -/
structure SenderHost (ς : Type) where
  send : ς → List UInt8 → String → ς × Option String
  close : ς → ς × Option String

/-- `hostDriver` with the state of its sender host and the calls made on it,
oldest first. -/
structure HostDriver (ς : Type) where
  isClosed : Bool
  sender : ς
  senderCalls : List SenderCall

/-- `ErrHostIsClosed`, and the two errors `handleAction` wraps with `%w`. -/
inductive HostError where
  | errHostIsClosed
  -- "%w while marshaling block for topic %s"
  | marshaling (err topic : String)
  -- "%w while sending data on route for topic %s"
  | sending (err topic : String)
  deriving DecidableEq, Repr

variable {ς α : Type} (host : SenderHost ς) (marshal : α → Except String (List UInt8))

def handleAction (o : HostDriver ς) (args : α) (topic : String) : HostDriver ς × Option HostError :=
  if o.isClosed then (o, some .errHostIsClosed)
  else match marshal args with
    | .error err => (o, some (.marshaling err topic))
    | .ok marshalledPayload =>
      let (sender, err) := host.send o.sender marshalledPayload topic
      let o := { o with sender, senderCalls := o.senderCalls ++ [.send marshalledPayload topic] }
      match err with
      | some err => (o, some (.sending err topic))
      | none => (o, none)

variable (t : Topics)

def saveBlock (o : HostDriver ς) (outportBlock : α) := handleAction host marshal o outportBlock t.saveBlock

def revertIndexedBlock (o : HostDriver ς) (blockData : α) :=
  handleAction host marshal o blockData t.revertIndexedBlock

def saveRoundsInfo (o : HostDriver ς) (roundsInfos : α) :=
  handleAction host marshal o roundsInfos t.saveRoundsInfo

def saveValidatorsPubKeys (o : HostDriver ς) (validatorsPubKeys : α) :=
  handleAction host marshal o validatorsPubKeys t.saveValidatorsPubKeys

def saveValidatorsRating (o : HostDriver ς) (validatorsRating : α) :=
  handleAction host marshal o validatorsRating t.saveValidatorsRating

def saveAccounts (o : HostDriver ς) (accounts : α) := handleAction host marshal o accounts t.saveAccounts

def finalizedBlock (o : HostDriver ς) (finalizedBlock : α) :=
  handleAction host marshal o finalizedBlock t.finalizedBlock

def newTransactionInPool (o : HostDriver ς) (transaction : α) :=
  handleAction host marshal o transaction "NewTransactionInPool"

def setCurrentSettings (o : HostDriver ς) (config : α) := handleAction host marshal o config t.settings

/-- `Close` raises the flag, then closes the sender host, whose error it returns. -/
def close (o : HostDriver ς) : HostDriver ς × Option String :=
  let (sender, err) := host.close o.sender
  (⟨true, sender, o.senderCalls ++ [.close]⟩, err)

inductive NewHostDriverError where
  | errNilHost
  | errNilMarshalizer
  | errNilLogger
  | payloadProcessor (err : String)
  deriving DecidableEq, Repr

/-- `ArgsHostDriver`; `none` is a nil interface. `senderHost` is the host's
state once the payload handler is set; `newPayloadProcessor` and
`setPayloadHandler` are the errors those calls return. -/
structure ArgsHostDriver (ς : Type) where
  marshaller : Option Unit
  senderHost : Option ς
  log : Option Unit
  newPayloadProcessor : Option String
  setPayloadHandler : Option String

def newHostDriver (args : ArgsHostDriver ς) : Except NewHostDriverError (HostDriver ς) :=
  match args.senderHost with
  | none => .error .errNilHost
  | some sender =>
    if args.marshaller.isNone then .error .errNilMarshalizer
    else if args.log.isNone then .error .errNilLogger
    else match args.newPayloadProcessor, args.setPayloadHandler with
      | some err, _ => .error (.payloadProcessor err)
      | none, some err => .error (.payloadProcessor err)
      | none, none => .ok ⟨false, sender, []⟩

inductive Action (α : Type) where
  | saveBlock (outportBlock : α)
  | revertIndexedBlock (blockData : α)
  | saveRoundsInfo (roundsInfos : α)
  | saveValidatorsPubKeys (validatorsPubKeys : α)
  | saveValidatorsRating (validatorsRating : α)
  | saveAccounts (accounts : α)
  | finalizedBlock (finalizedBlock : α)
  | newTransactionInPool (transaction : α)
  | setCurrentSettings (config : α)
  | close

def step (o : HostDriver ς) : Action α → HostDriver ς
  | .saveBlock a => (saveBlock host marshal t o a).1
  | .revertIndexedBlock a => (revertIndexedBlock host marshal t o a).1
  | .saveRoundsInfo a => (saveRoundsInfo host marshal t o a).1
  | .saveValidatorsPubKeys a => (saveValidatorsPubKeys host marshal t o a).1
  | .saveValidatorsRating a => (saveValidatorsRating host marshal t o a).1
  | .saveAccounts a => (saveAccounts host marshal t o a).1
  | .finalizedBlock a => (finalizedBlock host marshal t o a).1
  | .newTransactionInPool a => (newTransactionInPool host marshal o a).1
  | .setCurrentSettings a => (setCurrentSettings host marshal t o a).1
  | .close => (close host o).1

def run (o : HostDriver ς) (acts : List (Action α)) : HostDriver ς := acts.foldl (step host marshal t) o

def Action.handled : Action α → Option (α × String)
  | .saveBlock a => some (a, t.saveBlock)
  | .revertIndexedBlock a => some (a, t.revertIndexedBlock)
  | .saveRoundsInfo a => some (a, t.saveRoundsInfo)
  | .saveValidatorsPubKeys a => some (a, t.saveValidatorsPubKeys)
  | .saveValidatorsRating a => some (a, t.saveValidatorsRating)
  | .saveAccounts a => some (a, t.saveAccounts)
  | .finalizedBlock a => some (a, t.finalizedBlock)
  | .newTransactionInPool a => some (a, "NewTransactionInPool")
  | .setCurrentSettings a => some (a, t.settings)
  | .close => none

def Action.isClose : Action α → Bool
  | .close => true
  | _ => false

def sentPayload (act : Action α) : Option SenderCall :=
  (act.handled t).bind fun (a, topic) => (marshal a).toOption.map (.send · topic)

/-- What the sender host receives over a sequence of calls on an open driver:
each call's payload until the first `Close`, then one close per `Close`. -/
def senderLog (acts : List (Action α)) : List SenderCall :=
  (acts.takeWhile (!·.isClose)).filterMap (sentPayload marshal t) ++
    ((acts.dropWhile (!·.isClose)).filter (·.isClose)).map fun _ => .close

/-! ## One call -/

theorem step_eq (o : HostDriver ς) (act : Action α) :
    step host marshal t o act = match act.handled t with
      | some (a, topic) => (handleAction host marshal o a topic).1
      | none => (close host o).1 := by
  cases act <;> rfl

variable {host marshal}

theorem handleAction_closed {o : HostDriver ς} (h : o.isClosed = true) (a : α) (topic : String) :
    handleAction host marshal o a topic = (o, some .errHostIsClosed) := by
  simp [handleAction, h]

theorem handleAction_open {o : HostDriver ς} (h : o.isClosed = false) (a : α) (topic : String) :
    (handleAction host marshal o a topic).1.isClosed = false ∧
      (handleAction host marshal o a topic).1.senderCalls = o.senderCalls ++
        match marshal a with
        | .ok payload => [.send payload topic]
        | .error _ => [] := by
  unfold handleAction
  rw [if_neg (by simp [h])]
  cases marshal a with
  | error => simp [h]
  | ok payload => dsimp only; split <;> simp [h]

theorem handleAction_error {o : HostDriver ς} {a : α} {topic : String} {e : HostError}
    (h : (handleAction host marshal o a topic).2 = some e) :
    e = .errHostIsClosed ∨ (∃ err, e = .marshaling err topic) ∨ ∃ err, e = .sending err topic := by
  unfold handleAction at h
  split at h
  · simp only [Option.some.injEq] at h
    exact .inl h.symm
  · split at h
    · simp only [Option.some.injEq] at h
      exact .inr (.inl ⟨_, h.symm⟩)
    · dsimp only at h
      split at h
      · simp only [Option.some.injEq] at h
        exact .inr (.inr ⟨_, h.symm⟩)
      · cases h

/-! ## Whole runs -/

theorem step_of_isClose {o : HostDriver ς} {act : Action α} (h : act.isClose = true) :
    step host marshal t o act = (close host o).1 := by
  cases act <;> first | rfl | cases h

theorem step_of_not_isClose {o : HostDriver ς} {act : Action α} (h : act.isClose = false) :
    ∃ a topic, act.handled t = some (a, topic) ∧ step host marshal t o act = (handleAction host marshal o a topic).1 := by
  cases act <;> first | exact ⟨_, _, rfl, rfl⟩ | cases h

theorem step_isClosed (o : HostDriver ς) (act : Action α) :
    (step host marshal t o act).isClosed = (o.isClosed || act.isClose) := by
  cases hc : act.isClose
  · obtain ⟨a, topic, -, hs⟩ := step_of_not_isClose t hc
    rw [hs]
    cases ho : o.isClosed
    · exact (@handleAction_open ς α host marshal o ho a topic).1
    · rw [handleAction_closed ho, ho]; rfl
  · rw [step_of_isClose t hc]
    simp [close]

theorem run_closed {o : HostDriver ς} (h : o.isClosed = true) (acts : List (Action α)) :
    (run host marshal t o acts).isClosed = true ∧
      (run host marshal t o acts).senderCalls = o.senderCalls ++ (acts.filter (·.isClose)).map fun _ => .close := by
  induction acts generalizing o with
  | nil => simp [run, h]
  | cons act acts ih =>
    rw [run, List.foldl_cons, ← run]
    cases hc : act.isClose
    · obtain ⟨a, topic, -, hs⟩ := step_of_not_isClose t hc
      rw [hs, handleAction_closed h]
      simpa [hc] using ih h
    · rw [step_of_isClose t hc]
      obtain ⟨ih1, ih2⟩ := ih (show (close host o).1.isClosed = true from rfl)
      exact ⟨ih1, by rw [ih2]; simp [close, hc]⟩

/-- From an open driver, the sender host receives the payloads of the calls
before the first `Close`, in order and once each, then one close per `Close`. -/
theorem run_open {o : HostDriver ς} (h : o.isClosed = false) (acts : List (Action α)) :
    (run host marshal t o acts).isClosed = acts.any (·.isClose) ∧
      (run host marshal t o acts).senderCalls = o.senderCalls ++ senderLog marshal t acts := by
  induction acts generalizing o with
  | nil => simp [run, h, senderLog]
  | cons act acts ih =>
    rw [run, List.foldl_cons, ← run]
    cases hc : act.isClose
    · obtain ⟨a, topic, ha, hs⟩ := step_of_not_isClose t hc
      obtain ⟨hcl, hcalls⟩ := @handleAction_open ς α host marshal o h a topic
      rw [hs]
      obtain ⟨ih1, ih2⟩ := ih hcl
      refine ⟨by simpa [hc] using ih1, ?_⟩
      rw [ih2, hcalls]
      cases hm : marshal a <;> simp [senderLog, hc, sentPayload, ha, hm, Except.toOption]
    · rw [step_of_isClose t hc]
      obtain ⟨ih1, ih2⟩ := run_closed t (show (close host o).1.isClosed = true from rfl) acts
      exact ⟨by simpa [hc] using ih1, by rw [ih2]; simp [close, senderLog, hc]⟩

/-- Once `Close` has been called, whatever the calls before it and on any
driver, the sender host only receives the closes of further `Close` calls, and
every other call is refused with `ErrHostIsClosed`, changing nothing. -/
theorem run_afterClose (o : HostDriver ς) (acts₁ acts₂ : List (Action α)) :
    let after := run host marshal t o (acts₁ ++ .close :: acts₂)
    after.senderCalls = (run host marshal t o (acts₁ ++ [.close])).senderCalls ++
        (acts₂.filter (·.isClose)).map (fun _ => .close) ∧
      ∀ a topic, handleAction host marshal after a topic = (after, some .errHostIsClosed) := by
  intro after
  have hc : (run host marshal t o (acts₁ ++ [.close])).isClosed = true := by
    simp [run, List.foldl_append, step, close]
  have hrun : after = run host marshal t (run host marshal t o (acts₁ ++ [.close])) acts₂ := by
    simp [after, run, List.foldl_append]
  obtain ⟨h1, h2⟩ := run_closed t hc acts₂
  rw [hrun]
  exact ⟨h2, handleAction_closed h1⟩

theorem newHostDriver_ok {args : ArgsHostDriver ς} {o : HostDriver ς} (h : newHostDriver args = .ok o) :
    ∃ sender, args.senderHost = some sender ∧ o = ⟨false, sender, []⟩ := by
  unfold newHostDriver at h
  split at h
  · cases h
  · split_ifs at h
    split at h <;> cases h
    exact ⟨_, ‹_›, rfl⟩

/-- From a new driver, over any sequence of calls, the sender host receives the
marshalled argument of each call before the first `Close`, on that call's topic,
once and in order (nothing for an argument that does not marshal), then one
close per `Close`; the driver is closed exactly when some `Close` was called. -/
theorem run_newHostDriver_senderCalls {args : ArgsHostDriver ς} {o : HostDriver ς}
    (h : newHostDriver args = .ok o) (acts : List (Action α)) :
    (run host marshal t o acts).isClosed = acts.any (·.isClose) ∧
      (run host marshal t o acts).senderCalls = senderLog marshal t acts := by
  obtain ⟨sender, -, rfl⟩ := newHostDriver_ok h
  simpa using run_open t (show (⟨false, sender, []⟩ : HostDriver ς).isClosed = false from rfl) acts

theorem run_newHostDriver_senderCalls_closeTwice :
    let host : SenderHost Nat := ⟨fun s _ _ => (s + 1, none), fun s => (s, none)⟩
    let marshal : Unit → Except String (List UInt8) := fun _ => .ok [1]
    let t : Topics := ⟨"SaveBlock", "RevertIndexedBlock", "SaveRoundsInfo", "SaveValidatorsPubKeys",
      "SaveValidatorsRating", "SaveAccounts", "FinalizedBlock", "Settings"⟩
    let args : ArgsHostDriver Nat := ⟨some (), some 0, some (), none, none⟩
    let o : HostDriver Nat := ⟨false, 0, []⟩
    let acts : List (Action Unit) := [.saveBlock (), .close, .saveAccounts (), .close]
    newHostDriver args = .ok o ∧
      ((run host marshal t o acts).isClosed = acts.any (·.isClose) ∧
        (run host marshal t o acts).senderCalls = senderLog marshal t acts) := by
  intro host marshal t args o acts
  exact ⟨rfl, @run_newHostDriver_senderCalls Nat Unit host marshal t args o rfl acts⟩

end ChainIndexer.Outport
