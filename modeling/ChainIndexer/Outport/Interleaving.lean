import ChainIndexer.Outport.HostDriver
import Mathlib.Logic.Function.Basic
import Mathlib.Logic.Relation

/-! # The host driver under concurrent callers

`handleAction` loads the atomic flag and sends only later; `Close` stores it and
closes the sender host only later. So a payload can still reach a closed
driver's sender host, but at most one per goroutine, from a load before the first
store. One goroutine making the calls in turn does what the sequential driver does.
-/
namespace ChainIndexer.Outport

/-- Where a goroutine is inside a call on the driver. -/
inductive Pc where
  | idle
  | sending (payload : List UInt8) (topic : String)
  | closing
  deriving DecidableEq, Repr

/-- What the goroutines did, in order: a load or the store of the flag, a send,
the close of the sender host. The sender host's answers change no state of the
driver, so they are left out. -/
inductive Event where
  | load (g : Nat) (isClosed : Bool)
  | send (g : Nat) (payload : List UInt8) (topic : String)
  | store (g : Nat)
  | closeSender (g : Nat)
  deriving DecidableEq, Repr

structure World where
  isClosed : Bool
  pc : Nat → Pc
  log : List Event

def World.init : World := ⟨false, fun _ => .idle, []⟩

variable {α : Type} (marshal : α → Except String (List UInt8))

/-- One atomic step of goroutine `g`: the load with the marshalling after it,
the send, the store, the close of the sender host. -/
inductive Step : World → Nat → World → Prop
  | refused {w : World} {g : Nat} (h : w.pc g = .idle) (hc : w.isClosed = true) :
      Step w g { w with log := w.log ++ [.load g true] }
  | marshalFailed {w : World} {g : Nat} (a : α) {err : String} (h : w.pc g = .idle)
      (hc : w.isClosed = false) (hm : marshal a = .error err) :
      Step w g { w with log := w.log ++ [.load g false] }
  | loaded {w : World} {g : Nat} (a : α) (topic : String) {payload : List UInt8}
      (h : w.pc g = .idle) (hc : w.isClosed = false) (hm : marshal a = .ok payload) :
      Step w g
        { w with
          pc := Function.update w.pc g (.sending payload topic)
          log := w.log ++ [.load g false] }
  | sent {w : World} {g : Nat} {payload : List UInt8} {topic : String}
      (h : w.pc g = .sending payload topic) :
      Step w g { w with pc := Function.update w.pc g .idle, log := w.log ++ [.send g payload topic] }
  | stored {w : World} {g : Nat} (h : w.pc g = .idle) :
      Step w g
        { w with
          isClosed := true
          pc := Function.update w.pc g .closing
          log := w.log ++ [.store g] }
  | closed {w : World} {g : Nat} (h : w.pc g = .closing) :
      Step w g { w with pc := Function.update w.pc g .idle, log := w.log ++ [.closeSender g] }

inductive Reachable : World → Prop
  | init : Reachable .init
  | step {w w' : World} {g : Nat} : Reachable w → Step marshal w g w' → Reachable w'

/-! ## At most one send per goroutine after the close -/

def Event.isStore : Event → Bool
  | .store _ => true
  | _ => false

def Event.sentBy (g : Nat) : Event → Bool
  | .send g' _ _ => g' = g
  | _ => false

/-- The events after the flag was first stored; none while it never was. -/
def afterClose : List Event → List Event
  | [] => []
  | .store _ :: rest => rest
  | _ :: rest => afterClose rest

/-- The payloads goroutine `g` sent after the driver was first closed. -/
def sendsAfterClose (log : List Event) (g : Nat) : Nat := (afterClose log).countP (Event.sentBy g)

theorem afterClose_append (l : List Event) (e : Event) :
    afterClose (l ++ [e]) = if l.any Event.isStore then afterClose l ++ [e] else [] := by
  induction l with
  | nil => cases e <;> rfl
  | cons x l ih => cases x <;> simp [afterClose, Event.isStore, ih]

theorem sendsAfterClose_append (l : List Event) (e : Event) (g : Nat) :
    sendsAfterClose (l ++ [e]) g =
      if l.any Event.isStore then sendsAfterClose l g + if e.sentBy g then 1 else 0 else 0 := by
  unfold sendsAfterClose
  rw [afterClose_append]
  split <;> simp [List.countP_append, List.countP_cons]

/-- The flag is raised exactly when a store happened; each goroutine has sent at
most once since the first store, and not at all while it is about to send. -/
structure World.Inv (w : World) : Prop where
  closed : w.log.any Event.isStore = w.isClosed
  atMostOne : ∀ g, sendsAfterClose w.log g ≤ 1
  sending : ∀ g payload topic, w.pc g = .sending payload topic → sendsAfterClose w.log g = 0

theorem World.Inv.init : World.Inv .init :=
  ⟨rfl, fun _ => by simp [World.init, sendsAfterClose, afterClose],
    fun _ _ _ h => by simp [World.init] at h⟩

theorem World.Inv.append {w : World} (hi : w.Inv) (e : Event) (he : ∀ g, e.sentBy g = false)
    {isClosed : Bool} {pc : Nat → Pc} (hc : (w.log ++ [e]).any Event.isStore = isClosed)
    (hpc : ∀ g payload topic, pc g = .sending payload topic → w.pc g = .sending payload topic) :
    World.Inv ⟨isClosed, pc, w.log ++ [e]⟩ := by
  have hle : ∀ g, sendsAfterClose (w.log ++ [e]) g ≤ sendsAfterClose w.log g := fun g => by
    rw [sendsAfterClose_append, he g]
    split <;> simp
  exact ⟨hc, fun g => (hle g).trans (hi.atMostOne g),
    fun g p t h => Nat.eq_zero_of_le_zero ((hle g).trans (hi.sending g p t (hpc g p t h)).le)⟩

theorem update_sending {pc : Nat → Pc} {g g' : Nat} {q : Pc} (hq : ∀ p t, q ≠ .sending p t)
    {payload : List UInt8} {topic : String}
    (h : Function.update pc g q g' = .sending payload topic) : pc g' = .sending payload topic ∧ g' ≠ g := by
  by_cases hg : g' = g
  · subst hg
    simp at h
    exact (hq _ _ h).elim
  · simpa [Function.update_noteq hg, hg] using h

theorem Step.inv {w w' : World} {g : Nat} (hs : Step marshal w g w') (hi : w.Inv) : w'.Inv := by
  cases hs with
  | refused h hc =>
    exact hi.append (.load _ true) (fun _ => rfl) (by simp [hi.closed, hc, Event.isStore]) fun _ _ _ => id
  | marshalFailed a h hc hm =>
    exact hi.append (.load _ false) (fun _ => rfl) (by simp [hi.closed, hc, Event.isStore]) fun _ _ _ => id
  | loaded a topic h hc hm =>
    have hno : w.log.any Event.isStore = false := hi.closed.trans hc
    have hzero : ∀ g', sendsAfterClose (w.log ++ [.load g false]) g' = 0 := fun g' => by
      simp [sendsAfterClose_append, hno]
    exact ⟨by simp [hno, hc, Event.isStore], fun g' => (hzero g').trans_le (Nat.zero_le 1),
      fun g' _ _ _ => hzero g'⟩
  | @sent payload topic h =>
    refine ⟨by simp [hi.closed, Event.isStore], fun g' => ?_, fun g' p t h' => ?_⟩
    · have hle : sendsAfterClose w.log g' + (if (Event.send g payload topic).sentBy g' then 1 else 0) ≤ 1 := by
        by_cases hg : g' = g
        · simp [hg, hi.sending _ _ _ h, Event.sentBy]
        · simpa [Event.sentBy, Ne.symm hg] using hi.atMostOne g'
      rw [sendsAfterClose_append]
      split <;> omega
    · obtain ⟨h', hg⟩ := update_sending (fun _ _ => Pc.noConfusion) h'
      rw [sendsAfterClose_append, hi.sending g' p t h']
      simp [Event.sentBy, Ne.symm hg]
  | stored h =>
    exact hi.append (.store _) (fun _ => rfl) (by simp [Event.isStore])
      fun _ _ _ h' => (update_sending (fun _ _ => Pc.noConfusion) h').1
  | closed h =>
    exact hi.append (.closeSender _) (fun _ => rfl) (by simp [hi.closed, Event.isStore])
      fun _ _ _ h' => (update_sending (fun _ _ => Pc.noConfusion) h').1

theorem Reachable.inv {w : World} (hr : Reachable marshal w) : w.Inv := by
  induction hr with
  | init => exact World.Inv.init
  | step _ hs ih => exact hs.inv marshal ih

/-- However the goroutines interleave, each sends at most one payload after the
driver is first closed. -/
theorem reachable_sendsAfterClose_le_one {w : World} (hr : Reachable marshal w) (g : Nat) :
    sendsAfterClose w.log g ≤ 1 :=
  (hr.inv marshal).atMostOne g

/-- Goroutine 0 loads the flag down, goroutine 1 stores it, and goroutine 0
still sends its payload. -/
theorem reachable_sendsAfterClose_le_one_sendAfterClose :
    let marshal : Unit → Except String (List UInt8) := fun _ => .ok [1]
    let w : World := ⟨true,
      Function.update (Function.update (Function.update (fun _ => .idle) 0 (.sending [1] "SaveBlock")) 1 .closing)
        0 .idle,
      [.load 0 false, .store 1, .send 0 [1] "SaveBlock"]⟩
    Reachable marshal w ∧ sendsAfterClose w.log 0 ≤ 1 := by
  intro marshal w
  let loaded : World := ⟨false, Function.update (fun _ => .idle) 0 (.sending [1] "SaveBlock"), [.load 0 false]⟩
  let stored : World := ⟨true, Function.update loaded.pc 1 .closing, loaded.log ++ [.store 1]⟩
  have hloaded : Reachable marshal loaded := Reachable.init.step (.loaded () "SaveBlock" rfl rfl rfl)
  have hstored : Reachable marshal stored := hloaded.step (.stored rfl)
  have hr : Reachable marshal w := hstored.step (.sent rfl)
  exact ⟨hr, reachable_sendsAfterClose_le_one marshal hr 0⟩

/-! ## Calls that start after the close -/

def Event.isLoadBy (g : Nat) : Event → Bool
  | .load g' _ => g' = g
  | _ => false

def sendsAfterLoad (g : Nat) : List Event → Nat
  | [] => 0
  | .load g' _ :: rest => if g' = g then rest.countP (Event.sentBy g) else sendsAfterLoad g rest
  | _ :: rest => sendsAfterLoad g rest

theorem sendsAfterLoad_append (g : Nat) (l : List Event) (e : Event) :
    sendsAfterLoad g (l ++ [e]) =
      sendsAfterLoad g l + if l.any (Event.isLoadBy g) && e.sentBy g then 1 else 0 := by
  induction l with
  | nil => cases e <;> simp [sendsAfterLoad, Event.isLoadBy, Event.sentBy]
  | cons x l ih =>
    cases x with
    | load g' b =>
      by_cases hg : g' = g
      · cases h : e.sentBy g <;> simp [sendsAfterLoad, Event.isLoadBy, hg, h, List.countP_append]
      · simp [sendsAfterLoad, Event.isLoadBy, hg, ih]
    | _ => simp [sendsAfterLoad, Event.isLoadBy, ih]

theorem countP_le_sendsAfterLoad (g : Nat) (b : Bool) (l₁ l₂ : List Event) :
    l₂.countP (Event.sentBy g) ≤ sendsAfterLoad g (l₁ ++ .load g b :: l₂) := by
  induction l₁ with
  | nil => simp [sendsAfterLoad]
  | cons x l₁ ih =>
    cases x with
    | load g' b' =>
      by_cases hg : g' = g
      · simp [sendsAfterLoad, hg, List.countP_append, List.countP_cons, Event.sentBy]
      · simpa [sendsAfterLoad, hg] using ih
    | _ => simpa [sendsAfterLoad] using ih

/-- Every load after the first store reads the flag raised; a goroutine that
loaded after it is not about to send, and has sent nothing since. -/
structure World.LateInv (w : World) : Prop where
  refused : ∀ g b, Event.load g b ∈ afterClose w.log → b = true
  notSending : ∀ g, (afterClose w.log).any (Event.isLoadBy g) → ∀ p t, w.pc g ≠ .sending p t
  quiet : ∀ g, sendsAfterLoad g (afterClose w.log) = 0

theorem World.LateInv.init : World.LateInv .init :=
  ⟨fun _ _ h => by simp [World.init, afterClose] at h, fun _ h => by simp [World.init, afterClose] at h,
    fun _ => rfl⟩

theorem World.LateInv.of_open {log : List Event} (pc : Nat → Pc) (isClosed : Bool)
    (h : log.any Event.isStore = false) (e : Event) : World.LateInv ⟨isClosed, pc, log ++ [e]⟩ := by
  have he : afterClose (log ++ [e]) = [] := by simp [afterClose_append, h]
  exact ⟨fun _ _ hm => by simp [he] at hm, fun _ hm => by simp [he] at hm, fun _ => by rw [he]; rfl⟩

theorem World.LateInv.append {w : World} (hl : w.LateInv) (e : Event) (hload : ∀ g, e.isLoadBy g = false)
    (hquiet : ∀ g, ((afterClose w.log).any (Event.isLoadBy g) && e.sentBy g) = false) (b : Bool)
    {pc : Nat → Pc} (hpc : ∀ g payload topic, pc g = .sending payload topic → w.pc g = .sending payload topic) :
    World.LateInv ⟨b, pc, w.log ++ [e]⟩ := by
  have hle : ∀ e', e' ∈ afterClose (w.log ++ [e]) → e' ∈ afterClose w.log ∨ e' = e := fun e' h => by
    rw [afterClose_append] at h
    split at h <;> simp_all
  refine ⟨fun g b' hm => ?_, fun g hany p t hp => ?_, fun g => ?_⟩
  · rcases hle _ hm with hm | rfl
    · exact hl.refused g b' hm
    · simp [Event.isLoadBy] at hload
  · obtain ⟨e', hm, he'⟩ := List.any_eq_true.1 hany
    rcases hle _ hm with hm | rfl
    · exact hl.notSending g (List.any_eq_true.2 ⟨e', hm, he'⟩) p t (hpc g p t hp)
    · simp [hload] at he'
  · rw [afterClose_append]
    split
    · rw [sendsAfterLoad_append, hl.quiet, hquiet]; rfl
    · rfl

theorem Step.lateInv {w w' : World} {g : Nat} (hs : Step marshal w g w') (hi : w.Inv) (hl : w.LateInv) :
    w'.LateInv := by
  cases hs with
  | refused h hc =>
    have hafter : afterClose (w.log ++ [.load g true]) = afterClose w.log ++ [.load g true] := by
      rw [afterClose_append, if_pos (hi.closed.trans hc)]
    refine ⟨fun g' b hm => ?_, fun g' hany p t hp => ?_, fun g' => ?_⟩
    · rw [hafter, List.mem_append, List.mem_singleton] at hm
      rcases hm with hm | hm
      · exact hl.refused g' b hm
      · cases hm; rfl
    · rw [hafter, List.any_append] at hany
      by_cases hg : g' = g
      · subst hg
        simp [h] at hp
      · simp only [List.any_cons, List.any_nil, Event.isLoadBy, Bool.or_false] at hany
        exact hl.notSending g' (by simpa [Ne.symm hg] using hany) p t hp
    · rw [hafter, sendsAfterLoad_append, hl.quiet]
      simp [Event.sentBy]
  | marshalFailed a h hc hm => exact .of_open _ _ (hi.closed.trans hc) _
  | loaded a topic h hc hm => exact .of_open _ _ (hi.closed.trans hc) _
  | @sent payload topic h =>
    refine hl.append (.send g payload topic) (fun _ => rfl) (fun g' => ?_) _
      fun _ _ _ h' => (update_sending (fun _ _ => Pc.noConfusion) h').1
    by_cases hg : g = g'
    · subst hg
      cases hany : (afterClose w.log).any (Event.isLoadBy g)
      · rfl
      · exact absurd h (hl.notSending g hany payload topic)
    · simp [Event.sentBy, hg]
  | stored h =>
    exact hl.append (.store _) (fun _ => rfl) (fun _ => Bool.and_false _) _
      fun _ _ _ h' => (update_sending (fun _ _ => Pc.noConfusion) h').1
  | closed h =>
    exact hl.append (.closeSender _) (fun _ => rfl) (fun _ => Bool.and_false _) _
      fun _ _ _ h' => (update_sending (fun _ _ => Pc.noConfusion) h').1

theorem Reachable.lateInv {w : World} (hr : Reachable marshal w) : w.LateInv := by
  induction hr with
  | init => exact World.LateInv.init
  | step hr hs ih => exact hs.lateInv marshal (hr.inv marshal) ih

/-- A call that starts after the driver was first closed sees the flag raised:
however the goroutines interleave, every load after the first store reads
true, and the goroutine sends nothing after such a load. So the payloads sent
after a `Close` all come from calls that read the flag before it. -/
theorem reachable_loadAfterClose {w : World} (hr : Reachable marshal w) {g : Nat} {b : Bool}
    {l₁ l₂ : List Event} (h : afterClose w.log = l₁ ++ .load g b :: l₂) :
    b = true ∧ l₂.countP (Event.sentBy g) = 0 := by
  have hl := hr.lateInv marshal
  refine ⟨hl.refused g b (h ▸ by simp), Nat.eq_zero_of_le_zero ?_⟩
  calc l₂.countP (Event.sentBy g)
      ≤ sendsAfterLoad g (afterClose w.log) := h ▸ countP_le_sendsAfterLoad g b l₁ l₂
    _ = 0 := hl.quiet g

theorem reachable_loadAfterClose_refused :
    let w : World := ⟨true, Function.update (fun _ => .idle) 0 .closing, [.store 0, .load 1 true]⟩
    Reachable (fun _ : Unit => Except.ok ([] : List UInt8)) w ∧ afterClose w.log = [] ++ .load 1 true :: [] ∧
      (true = true ∧ ([] : List Event).countP (Event.sentBy 1) = 0) := by
  intro w
  have hr : Reachable (fun _ : Unit => Except.ok ([] : List UInt8)) w :=
    (Reachable.init.step (.stored rfl)).step (.refused rfl rfl)
  exact ⟨hr, rfl, @reachable_loadAfterClose Unit _ w hr 1 true [] [] rfl⟩

/-! ## One goroutine is the sequential driver -/

def Steps (g : Nat) : World → World → Prop := Relation.ReflTransGen fun w w' => Step marshal w g w'

def Event.senderCall : Event → Option SenderCall
  | .send _ payload topic => some (.send payload topic)
  | .closeSender _ => some .close
  | _ => none

/-- The events goroutine `g` logs for a call through `handleAction` when it
reads the flag as `isClosed`: the load, then the send of the marshalled argument
if the flag was down. `Close` logs the store and the close of the sender host. -/
def handleEvents (g : Nat) (isClosed : Bool) (a : α) (topic : String) : List Event :=
  if isClosed then [.load g true]
  else match marshal a with
    | .error _ => [.load g false]
    | .ok payload => [.load g false, .send g payload topic]

variable (t : Topics)

def callEvents (g : Nat) (isClosed : Bool) (act : Action α) : List Event :=
  match act.handled t with
  | some (a, topic) => handleEvents marshal g isClosed a topic
  | none => [.store g, .closeSender g]

def runEvents (g : Nat) : Bool → List (Action α) → List Event
  | _, [] => []
  | isClosed, act :: acts => callEvents marshal t g isClosed act ++ runEvents g (isClosed || act.isClose) acts

/-- A world where no call is under way, which the sequential driver `o` describes. -/
structure Corresponds {ς : Type} (w : World) (o : HostDriver ς) : Prop where
  isClosed : w.isClosed = o.isClosed
  senderCalls : w.log.filterMap Event.senderCall = o.senderCalls
  idle : ∀ g, w.pc g = .idle

variable {ς : Type} {host : SenderHost ς} {marshal}

theorem Reachable.steps {w w' : World} {g : Nat} (hr : Reachable marshal w) (hs : Steps marshal g w w') :
    Reachable marshal w' := by
  induction hs with
  | refl => exact hr
  | tail _ hst ih => exact ih.step hst

theorem update_idle {pc : Nat → Pc} (hpc : ∀ g, pc g = .idle) (g : Nat) (q : Pc) (g' : Nat) :
    Function.update (Function.update pc g q) g .idle g' = .idle := by
  by_cases hg : g' = g <;> simp [Function.update_apply, hg, hpc]

theorem handleAction_simulated {w : World} {o : HostDriver ς} (hw : Corresponds w o) (g : Nat)
    (a : α) (topic : String) :
    ∃ w', Steps marshal g w w' ∧ w'.log = w.log ++ handleEvents marshal g o.isClosed a topic ∧
      Corresponds w' (handleAction host marshal o a topic).1 := by
  cases hc : o.isClosed
  · obtain ⟨hcl, hcalls⟩ := @handleAction_open ς α host marshal o hc a topic
    have hopen : w.isClosed = false := hw.isClosed.trans hc
    cases hm : marshal a with
    | error err =>
      rw [hm] at hcalls
      exact ⟨_, .single (.marshalFailed a (hw.idle g) hopen hm), by simp [handleEvents, hm],
        ⟨hopen.trans hcl.symm, by simp [hcalls, Event.senderCall, hw.senderCalls], hw.idle⟩⟩
    | ok payload =>
      rw [hm] at hcalls
      exact ⟨_, Relation.ReflTransGen.head (.loaded a topic (hw.idle g) hopen hm)
        (.single (.sent (Function.update_same _ _ _))), by simp [handleEvents, hm],
        ⟨hopen.trans hcl.symm, by simp [hcalls, Event.senderCall, hw.senderCalls], update_idle hw.idle g _⟩⟩
  · rw [handleAction_closed hc]
    exact ⟨_, .single (.refused (hw.idle g) (hw.isClosed.trans hc)), by simp [handleEvents],
      ⟨hw.isClosed, by simp [Event.senderCall, hw.senderCalls], hw.idle⟩⟩

theorem close_simulated {w : World} {o : HostDriver ς} (hw : Corresponds w o) (g : Nat) :
    ∃ w', Steps marshal g w w' ∧ w'.log = w.log ++ [.store g, .closeSender g] ∧
      Corresponds w' (close host o).1 :=
  ⟨_, Relation.ReflTransGen.head (.stored (hw.idle g)) (.single (.closed (Function.update_same _ _ _))),
    by simp, ⟨rfl, by simp [close, Event.senderCall, hw.senderCalls], update_idle hw.idle g _⟩⟩

theorem step_simulated {w : World} {o : HostDriver ς} (hw : Corresponds w o) (g : Nat) (act : Action α) :
    ∃ w', Steps marshal g w w' ∧ w'.log = w.log ++ callEvents marshal t g o.isClosed act ∧
      Corresponds w' (step host marshal t o act) := by
  rw [step_eq]
  unfold callEvents
  cases act.handled t with
  | some p => exact handleAction_simulated hw g p.1 p.2
  | none => exact close_simulated hw g

/-- Every sequence of calls that one goroutine makes on a world at rest is run
by that goroutine's steps, logs their events, and ends where the sequential
driver ends. -/
theorem run_simulated {w : World} {o : HostDriver ς} (hw : Corresponds w o) (g : Nat)
    (acts : List (Action α)) :
    ∃ w', Steps marshal g w w' ∧ w'.log = w.log ++ runEvents marshal t g o.isClosed acts ∧
      Corresponds w' (run host marshal t o acts) := by
  induction acts generalizing w o with
  | nil => exact ⟨w, .refl, by simp [runEvents], hw⟩
  | cons act acts ih =>
    obtain ⟨w₁, hs₁, hl₁, hw₁⟩ := step_simulated t hw g act
    obtain ⟨w₂, hs₂, hl₂, hw₂⟩ := ih hw₁
    refine ⟨w₂, hs₁.trans hs₂, ?_, hw₂⟩
    rw [hl₂, hl₁, step_isClosed, runEvents, List.append_assoc]

/-- A new driver whose calls one goroutine makes in turn is a run of the
concurrent model: that goroutine logs exactly the events of those calls, and the
world ends at rest with the flag and the sender host's calls of the sequential
driver. -/
theorem run_newHostDriver_reachable {args : ArgsHostDriver ς} {o : HostDriver ς}
    (h : newHostDriver args = .ok o) (acts : List (Action α)) :
    ∃ w, Reachable marshal w ∧ w.log = runEvents marshal t 0 false acts ∧
      Corresponds w (run host marshal t o acts) := by
  obtain ⟨sender, -, rfl⟩ := newHostDriver_ok h
  obtain ⟨w, hs, hl, hw⟩ := run_simulated t (⟨rfl, rfl, fun _ => rfl⟩ : Corresponds World.init ⟨false, sender, []⟩) 0 acts
  exact ⟨w, Reachable.init.steps hs, hl, hw⟩

theorem run_newHostDriver_reachable_saveAfterClose :
    let host : SenderHost Nat := ⟨fun s _ _ => (s + 1, none), fun s => (s, none)⟩
    let marshal : Unit → Except String (List UInt8) := fun _ => .ok [1]
    let t : Topics := ⟨"SaveBlock", "RevertIndexedBlock", "SaveRoundsInfo", "SaveValidatorsPubKeys",
      "SaveValidatorsRating", "SaveAccounts", "FinalizedBlock", "Settings"⟩
    let args : ArgsHostDriver Nat := ⟨some (), some 0, some (), none, none⟩
    let o : HostDriver Nat := ⟨false, 0, []⟩
    let acts : List (Action Unit) := [.saveBlock (), .close, .saveAccounts ()]
    newHostDriver args = .ok o ∧ ∃ w, Reachable marshal w ∧ w.log = runEvents marshal t 0 false acts ∧
      Corresponds w (run host marshal t o acts) := by
  intro host marshal t args o acts
  exact ⟨rfl, @run_newHostDriver_reachable Unit marshal t Nat host args o rfl acts⟩

end ChainIndexer.Outport
