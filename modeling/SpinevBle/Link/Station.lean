import SpinevBle.Charger.History
import SpinevBle.Lib.Serial
import SpinevBle.Link.Carried

/-!
# Jobs of many calls

One client with any number of calls at a time, and the charger that hears its frames. A frame reaches
the charger while its send is under way (started, and neither ended nor cancelled) or not at all.
Since a job has the lock to itself, whatever happens to the calls comes to the same as if their jobs
were done one after another, each at once with its answer, in the order in which they had the lock.
-/

namespace SpinevBle

open Asyncio Interaction Transition

variable {σ β : Type}

/-! ### The station -/

/-- A client and its charger. `heard` are the flights whose frames have reached the charger, with
what it has answered. -/
structure Station (σ β : Type) where
  client : State β
  charger : σ
  heard : ℕ → Option (Option Bytes)

/-- `heard` is when the frame of a send reaches the charger. -/
inductive StationEvent (β : Type)
  | client (e : Event β)
  | heard (i : ℕ)

/-- What an event is to the client. -/
def StationEvent.client? : StationEvent β → Option (Event β)
  | .client e => some e
  | .heard _ => none

namespace Station

def init (β : Type) (timeoutHint : Option String) (password : Option ℤ) (s : σ) : Station σ β :=
  ⟨State.init β timeoutHint password, s, fun _ => none⟩

def step (charger : Firmware σ) (s : Station σ β) : StationEvent β → Option (Station σ β)
  | .client e => do
    let client ← s.client.step e
    return { s with client }
  | .heard i => do
    let task ← s.client.sendTasks i
    guard (task.state = .running ∧ s.heard i = none)
    let (t, answer) := charger s.charger task.frame
    return { s with charger := t, heard := Function.update s.heard i (some answer) }

end Station

def station (charger : Firmware σ) (timeoutHint : Option String) (password : Option ℤ) (s : σ) :
    System (Station σ β) (StationEvent β) :=
  ⟨Station.init β timeoutHint password s, Station.step charger⟩

/-- The runs of a new client with a charger in state `s₀`. -/
abbrev StationRun (charger : Firmware σ) (timeoutHint : Option String) (password : Option ℤ) (s₀ : σ)
    (P : Station σ β → StationEvent β → Prop) (es : List (StationEvent β)) (s : Station σ β) :
    Prop :=
  Run (station charger timeoutHint password s₀) P (Station.init β timeoutHint password s₀) es s

/-- No send returns whose frame has not reached the charger, and no payload answers a request but
the charger's answer to its frame. -/
def Relayed (s : Station σ β) : StationEvent β → Prop
  | .client (.sendEnd i .returned) => (s.heard i).isSome = true
  | .client (.notify payload) => ∀ e ∈ s.client.waiters.entries, Answers payload e.1 e.2.flag →
      s.heard e.2.future = some (some payload)
  | _ => True

instance (s : Station σ β) (e : StationEvent β) : Decidable (Relayed s e) :=
  match e with
  | .client (.sendEnd _ .returned) => inferInstanceAs (Decidable (_ = _))
  | .client (.notify _) => inferInstanceAs (Decidable (∀ e ∈ _, _ → _))
  | .client (.sendEnd _ (.raised _)) | .client (.sendEnd _ .cancelled) | .client (.spawn ..)
  | .client (.run _) | .client (.cancel _) | .client (.expire _) | .client (.idle _)
  | .client (.sendStart _) | .client (.sendUnwind _) | .client .disconnect | .client (.link _)
  | .heard _ => .isTrue trivial

/-! ### Jobs done at once -/

namespace Firmware

/-- The charger after it has heard the frames. -/
def after (charger : Firmware σ) (s : σ) (frames : List Frame) : σ :=
  frames.foldl (fun s f => (charger s f).1) s

variable {charger : Firmware σ} {s : σ} {frames : List Frame}

lemma after_append (frames' : List Frame) :
    charger.after s (frames ++ frames') = charger.after (charger.after s frames) frames' :=
  List.foldl_append

/-- What a job does to a charger that hears nothing else meanwhile, with what it comes to. The
charger has heard some of the frames of a job that has failed. -/
inductive Serves (charger : Firmware σ) (s : σ) : Block → σ → Prop
  | replied {c frame register payload} (ha : (charger s frame).2 = some payload) :
      Serves charger s ⟨c, .request frame register, .ok payload⟩ (charger s frame).1
  | written {c frames} : Serves charger s ⟨c, .writeFrames frames, .ok ()⟩ (charger.after s frames)
  | collected {c count records} :
      Serves charger s ⟨c, .history count, .ok records⟩
        (charger.after s (Job.history count).frames)
  | failed {c j x frames} (hf : frames <+: j.frames) :
      Serves charger s ⟨c, j, .error x⟩ (charger.after s frames)

end Firmware

/-! ### The job that has the lock -/

/-- How far the charger has come with the job that has the lock, from state `t` to `u`. It has heard
the frames before the one in progress, and may have heard that one. -/
inductive Firmware.Midway (charger : Firmware σ) (t u : σ) (heard : ℕ → Option (Option Bytes)) :
    Option (Holder β) → Prop
  | free (hu : u = t) : Midway charger t u heard none
  | unheard {c j k n fl} (hh : heard fl.id = none) (hu : u = charger.after t (j.frames.take n)) :
      Midway charger t u heard (some (.delivering c j k n fl))
  | heard {c j k n fl frame answer} (hh : heard fl.id = some answer)
      (hj : j.frames[n]? = some frame)
      (hu : charger (charger.after t (j.frames.take n)) frame = (u, answer)) :
      Midway charger t u heard (some (.delivering c j k n fl))
  | collecting {c count k} (hu : u = charger.after t (Job.history count).frames) :
      Midway charger t u heard (some (.collecting c count k))

section

variable {charger : Firmware σ} {s₀ t u : σ} {heard : ℕ → Option (Option Bytes)} {c n : ℕ} {j : Job}
  {k : Except Exc j.Value → Program (Except Exc β)} {fl : Flight}

namespace Firmware.Midway

lemma of_free (h : charger.Midway t u heard (none : Option (Holder β))) : u = t := by
  cases h with
  | free hu => exact hu

lemma of_collecting {count : ℤ} {k : Except Exc (List Bytes) → Program (Except Exc β)}
    (h : charger.Midway t u heard (some (.collecting c count k))) :
    u = charger.after t (Job.history count).frames := by
  cases h with
  | collecting hu => exact hu

/-- Where the frame in progress is waited for makes no difference. -/
lemma setFlight (h : charger.Midway t u heard (some (.delivering c j k n fl))) {fl' : Flight}
    (hid : fl'.id = fl.id) : charger.Midway t u heard (some (.delivering c j k n fl')) := by
  cases h with
  | unheard hh hu => exact .unheard (hid ▸ hh) hu
  | heard hh hj hu => exact .heard (hid ▸ hh) hj hu

/-- What a frame does that has been heard. -/
lemma of_heard (h : charger.Midway t u heard (some (.delivering c j k n fl)))
    {answer : Option Bytes} (hh : heard fl.id = some answer) :
    ∃ frame, j.frames[n]? = some frame ∧
      charger (charger.after t (j.frames.take n)) frame = (u, answer) := by
  cases h with
  | unheard hh' =>
    rw [hh'] at hh
    cases hh
  | heard hh' hj hu =>
    rw [hh'] at hh
    cases hh
    exact ⟨_, hj, hu⟩

/-- After that the next frame is due. -/
lemma after_heard (h : charger.Midway t u heard (some (.delivering c j k n fl)))
    (hh : (heard fl.id).isSome = true) : u = charger.after t (j.frames.take (n + 1)) := by
  obtain ⟨answer, hh⟩ := Option.isSome_iff_exists.1 hh
  obtain ⟨frame, hj, hu⟩ := h.of_heard hh
  rw [List.take_add_one, hj, Firmware.after_append]
  exact (congrArg Prod.fst hu).symm

/-- The charger has heard a part of the job. -/
lemma after_prefix (h : charger.Midway t u heard (some (.delivering c j k n fl))) :
    ∃ frames, frames <+: j.frames ∧ u = charger.after t frames := by
  by_cases hh : (heard fl.id).isSome = true
  · exact ⟨_, List.take_prefix _ _, h.after_heard hh⟩
  · cases h with
    | unheard _ hu => exact ⟨_, List.take_prefix _ _, hu⟩
    | heard hh' => exact absurd (by simp [hh']) hh

/-- It has heard nothing else. -/
lemma exists_frames {lock : Option (Holder β)} (h : charger.Midway t u heard lock) :
    ∃ frames, u = charger.after t frames ∧ (lock = none → frames = []) ∧
      ∀ hd, lock = some hd → frames <+: hd.job.frames := by
  cases lock with
  | none => exact ⟨[], h.of_free, fun _ => rfl, fun _ hd => by cases hd⟩
  | some hd =>
    obtain ⟨frames, hpart, hu⟩ : ∃ frames, frames <+: hd.job.frames ∧
        u = charger.after t frames := by
      cases hd with
      | delivering c j k n fl => exact h.after_prefix
      | collecting c count k => exact ⟨_, List.prefix_rfl, h.of_collecting⟩
    refine ⟨frames, hu, fun hn => absurd hn (Option.some_ne_none hd), ?_⟩
    rintro hd' ⟨⟩
    exact hpart

end Firmware.Midway

/-- The jobs that have ended were done at once, and this is how far the one that has the lock is. -/
def Firmware.Served (charger : Firmware σ) (s₀ u : σ) (heard : ℕ → Option (Option Bytes))
    (s : State β) : Prop :=
  ∃ H t, H.map Stage.op = s.blocks ∧ Serial charger.Serves s₀ H t ∧ charger.Midway t u heard s.lock

namespace Firmware.Served

variable {s s' : State β} {e : Event β} {H : List (Stage σ Block)}

/-- The job that has the lock ends. -/
lemma close {b : Block} (hH : H.map Stage.op = s.blocks) (ht : Serial charger.Serves s₀ H t)
    (hb : charger.Serves t b u) (hblocks : s'.blocks = b :: s.blocks) (hlock : s'.lock = none) :
    charger.Served s₀ u heard s' := by
  refine ⟨⟨t, b, u⟩ :: H, u, ?_, ht.cons hb, ?_⟩
  · rw [hblocks, List.map_cons, hH]
  · rw [hlock]
    exact .free rfl

lemma fail (hH : H.map Stage.op = s.blocks) (ht : Serial charger.Serves s₀ H t)
    (h : charger.Midway t u heard (some (.delivering c j k n fl))) {x : Exc}
    (hblocks : s'.blocks = ⟨c, j, .error x⟩ :: s.blocks) (hlock : s'.lock = none) :
    charger.Served s₀ u heard s' := by
  obtain ⟨frames, hpart, hu⟩ := h.after_prefix
  exact close hH ht (hu ▸ .failed hpart) hblocks hlock

/-- A job whose frames have been heard so far goes on, or leaves the lock. -/
lemma goesOn {v : State β} {cn : Cancellation} (hH : H.map Stage.op = s.blocks)
    (ht : Serial charger.Serves s₀ H t) (hu : u = charger.after t (j.frames.take n))
    (hg : v.GoesOn c cn j k n s') (hv : v.blocks = s.blocks) (hh : heard v.nextId = none) :
    charger.Served s₀ u heard s' := by
  cases hg with
  | launch hj => exact ⟨H, t, hH.trans hv.symm, ht, .unheard hh hu⟩
  | release hj hr =>
    have htake : j.frames.take n = j.frames := List.take_of_length_le (by simpa using hj)
    refine close hH ht ?_ (congrArg (_ :: ·) hv) rfl
    rw [hu, htake]
    cases j with
    | request => exact hr.elim
    | writeFrames frames =>
      obtain rfl : _ = Except.ok () := hr
      exact .written
    | history count =>
      obtain ⟨x, -, rfl⟩ := hr
      exact .failed List.prefix_rfl

end Firmware.Served

/-- What has been heard, and what the client knows of it. -/
structure HeardBy (heard : ℕ → Option (Option Bytes)) (s : State β) : Prop where
  created : ∀ i task, s.sendTasks i = some task → task.state = .created → heard i = none
  returned : ∀ i task, s.sendTasks i = some task → task.state = .done .returned →
    (heard i).isSome = true
  replied : ∀ i payload, s.futures i = .result payload → heard i = some (some payload)
  unborn : ∀ i, s.nextId ≤ i → heard i = none

/-- A step of the client alone. -/
lemma Firmware.Served.step {s s' : State β} {e : Event β} (h : charger.Served s₀ u heard s)
    (hh : HeardBy heard s) (hs : s.Consistent) (hst : Step s e s') :
    charger.Served s₀ u heard s' := by
  obtain ⟨H, t, hH, ht, hm⟩ := h
  cases hst with
  | @enter c j k cn hc hm' hl =>
    rw [hl] at hm
    have hu : u = charger.after t (j.frames.take 0) := hm.of_free
    exact .goesOn hH ht hu (s.goesOn_enter _ _ _ _) rfl (hh.unborn _ le_rfl)
  | next hc hl htask hd =>
    rw [hl] at hm
    have hreturned := hh.returned _ _ htask (Step.returned_of_delivered hs hl htask hd)
    exact .goesOn hH ht (hm.after_heard hreturned) (State.goesOn_nextFrame _ _ _ _ _ _) rfl
      (hh.unborn _ le_rfl)
  | awaitSend hc hl | awaitReply hc hl =>
    rw [hl] at hm
    exact ⟨H, t, hH, ht, hm.setFlight rfl⟩
  | @reply c frame register k n fl cn task payload hc hl htask hd hf =>
    rw [hl] at hm
    obtain ⟨frame', hj, hu⟩ := hm.of_heard (hh.replied _ _ hf)
    obtain ⟨rfl, hframe⟩ := Job.frames_request hj
    have hanswer : charger t frame = (u, some payload) := hframe ▸ hu
    have hserves : charger.Serves t ⟨c, .request frame register, .ok payload⟩ u := by
      have hserves := @Firmware.Serves.replied σ charger t c frame register payload
        (congrArg Prod.snd hanswer)
      rwa [hanswer] at hserves
    exact .close hH ht hserves rfl rfl
  | failed hc hl | raised hc hl =>
    rw [hl] at hm
    exact .fail hH ht hm rfl rfl
  | @collect c count k n fl cn task hc hl htask hd =>
    rw [hl] at hm
    have hreturned := hh.returned _ _ htask (Step.returned_of_delivered hs hl htask hd)
    have hu := hm.after_heard hreturned
    rw [List.take_of_length_le ((Job.length_frames_history count).trans (by omega))] at hu
    exact ⟨H, t, hH, ht, .collecting hu⟩
  | stop hc hl =>
    rw [hl] at hm
    exact .close hH ht (hm.of_collecting ▸ .failed List.prefix_rfl) rfl rfl
  | idle hc hl =>
    rw [hl] at hm
    exact .close hH ht (hm.of_collecting ▸ .collected) rfl rfl
  | cancel hc hl =>
    refine ⟨H, t, ?_, ht, ?_⟩
    · rwa [State.interrupt_blocks]
    · rwa [State.interrupt_lock]
  | expire hc hl =>
    refine ⟨H, t, ?_, ht, ?_⟩
    · rwa [State.interrupt_blocks]
    · rw [State.interrupt_lock]
      rw [hl] at hm
      exact hm.setFlight rfl
  | _ => exact ⟨H, t, hH, ht, hm⟩

namespace HeardBy

variable {s s' : State β} {e : Event β}

/-- A step of the client alone, if the charger is relayed. -/
lemma step (h : HeardBy heard s) (hst : Step s e s')
    (hend : ∀ i, e = .sendEnd i .returned → (heard i).isSome = true)
    (hnotify : ∀ payload register w, e = .notify payload → s.waiters.lookup register = some w →
      Answers payload register w.flag → heard w.future = some (some payload)) :
    HeardBy heard s' where
  created i task ht hc := by
    have hchange := hst.sendTasks_cases i
    rw [ht] at hchange
    cases hchange with
    | same ht' => exact h.created i task ht'.symm hc
    | create hi => exact h.unborn i hi.ge
    | @cancel _ _ _ _ _ _ task' => cases hs : task'.state <;> simp [hs, TaskState.cancel] at hc
    | start | unwind | finish => cases hc
  returned i task ht hr := by
    have hchange := hst.sendTasks_cases i
    rw [ht] at hchange
    cases hchange with
    | same ht' => exact h.returned i task ht'.symm hr
    | @cancel _ _ _ _ _ _ task' _ _ ht' =>
      refine h.returned i task' ht' ?_
      cases hs : task'.state <;> simp [hs, TaskState.cancel] at hr
      rw [hr]
    | create | start | unwind => cases hr
    | finish =>
      cases hr
      exact hend i rfl
  replied i payload hf := by
    have hchange := hst.futures_cases i
    rw [hf] at hchange
    cases hchange with
    | same hf' => exact h.replied i payload hf'.symm
    | answer ha hw hi => exact hi ▸ hnotify _ _ _ rfl hw ha
  unborn i hi := h.unborn i (hst.nextId_le.trans hi)

/-- A frame is heard while its send is under way. -/
lemma hear (h : HeardBy heard s) (hs : s.Consistent) {i : ℕ} {task : SendTask}
    (ht : s.sendTasks i = some task) (hr : task.state = .running) (hn : heard i = none)
    (answer : Option Bytes) : HeardBy (Function.update heard i (some answer)) s where
  created i' task' ht' hc := by
    rcases eq_or_ne i' i with rfl | hi
    · rw [ht] at ht'
      cases ht'
      rw [hr] at hc
      cases hc
    · rw [Function.update_of_ne hi]
      exact h.created i' task' ht' hc
  returned i' task' ht' hd := by
    rcases eq_or_ne i' i with rfl | hi
    · rw [Function.update_self]
      rfl
    · rw [Function.update_of_ne hi]
      exact h.returned i' task' ht' hd
  replied i' payload hf := by
    have hheard := h.replied i' payload hf
    rcases eq_or_ne i' i with rfl | hi
    · rw [hn] at hheard
      cases hheard
    · rwa [Function.update_of_ne hi]
  unborn i' hi' := by
    have hlt : i < s.nextId := by
      by_contra hge
      rw [(hs.unborn i (not_lt.1 hge)).1] at ht
      cases ht
    rw [Function.update_of_ne (hlt.trans_le hi').ne']
    exact h.unborn i' hi'

end HeardBy

/-- The charger hears the frame in progress. -/
lemma Firmware.Served.hear {s : State β} (h : charger.Served s₀ u heard s) (hs : s.Consistent)
    (ho : s.SendsOwned) {i : ℕ} {task : SendTask} (ht : s.sendTasks i = some task)
    (hr : task.state = .running) (hn : heard i = none) :
    charger.Served s₀ (charger u task.frame).1
      (Function.update heard i (some (charger u task.frame).2)) s := by
  obtain ⟨H, t, hH, hserial, hm⟩ := h
  obtain ⟨c, j, k, n, fl, hl, rfl⟩ := ho i task ht (.inr hr)
  obtain ⟨frame, state, hj, ht'⟩ := (hs.flying _ _ _ _ _ hl).task
  rw [ht] at ht'
  cases ht'
  rw [hl] at hm
  have hu : u = charger.after t (j.frames.take n) := by
    cases hm with
    | unheard _ hu => exact hu
    | heard hh =>
      rw [hn] at hh
      cases hh
  refine ⟨H, t, hH, hserial, ?_⟩
  rw [hl]
  exact .heard (Function.update_self ..) hj (by rw [← hu])

end

/-! ### The order of the jobs -/

section

variable {s s' t : State β} {e : Event β} {timeoutHint : Option String} {password : Option ℤ}
  {P : State β → Event β → Prop} {es : List (Event β)}

/-- A job that ends is not one of a call that has nothing left to do. -/
lemma Step.not_endsWith_of_block (hst : Step s e s') (hs : s.Consistent) {b : Block}
    (hb : s'.blocks = b :: s.blocks) (r : Except Exc β) : ¬ s.EndsWith b.call r := by
  rintro ⟨phase, cn, hc, hp⟩
  obtain ⟨-, k, cn', hremains, -⟩ := hst.ended hb
  have hpure : s.Remains b.call (.pure r) := by
    rcases hp with rfl | rfl
    · exact .running hc
    · exact .finished hc
  cases hremains.unique hpure hs

/-- The jobs that end in a run are not those of calls that had ended before. -/
lemma blocks_of_run (h : Run (machine β timeoutHint password) P s es t) (hs : s.Consistent) :
    ∃ bs, t.blocks = bs ++ s.blocks ∧ ∀ b ∈ bs, ∀ r, ¬ s.EndsWith b.call r := by
  let J (u : State β) : Prop := (∀ c r, s.EndsWith c r → u.EndsWith c r) ∧
    ∃ bs, u.blocks = bs ++ s.blocks ∧ ∀ b ∈ bs, ∀ r, ¬ s.EndsWith b.call r
  have hstep : ∀ u e v, u.Consistent → J u → P u e → Step u e v → J v := by
    rintro u e v hu ⟨hends, bs, hbs, hnot⟩ - hst
    refine ⟨fun c r hc => (hends c r hc).step hu hst, ?_⟩
    rcases hst.blocks_cases hu with hsame | ⟨b, hnew, -⟩
    · exact ⟨bs, hsame.trans hbs, hnot⟩
    · refine ⟨b :: bs, by rw [hnew, hbs, List.cons_append], ?_⟩
      rw [List.forall_mem_cons]
      exact ⟨fun r hc => hst.not_endsWith_of_block hu hnew r (hends _ r hc), hnot⟩
  exact (invariant_of_run hstep h hs ⟨fun _ _ hc => hc, [], rfl, by simp⟩).2

/-- Only calls that have been made have jobs. -/
lemma calls_of_block (h : ClientRun timeoutHint password P es s) {b : Block} (hb : b ∈ s.blocks) :
    s.calls b.call ≠ none := by
  have hstep : ∀ u e v, u.Consistent → (∀ b ∈ u.blocks, u.calls b.call ≠ none) → P u e →
      Step u e v → ∀ b ∈ v.blocks, v.calls b.call ≠ none := by
    intro u e v hu hborn _ hst b hb
    rcases hst.blocks_cases hu with hsame | ⟨b', hnew, -⟩
    · exact hst.calls_ne_none (hborn b (hsame ▸ hb))
    · rw [hnew] at hb
      rcases List.mem_cons.1 hb with rfl | hb
      · obtain ⟨-, k, cn, -, hc⟩ := hst.ended hnew
        exact Option.ne_none_iff_exists'.2 ⟨_, hc⟩
      · exact hst.calls_ne_none (hborn b hb)
  exact invariant_of_run hstep h (.init _ _) (by simp [State.init]) b hb

end

/-! ### Runs -/

/-- What every step of the station keeps. -/
structure Station.Inv (charger : Firmware σ) (s₀ : σ) (s : Station σ β) : Prop where
  consistent : s.client.Consistent
  owned : s.client.SendsOwned
  heardBy : HeardBy s.heard s.client
  served : charger.Served s₀ s.charger s.heard s.client

namespace Station.Inv

variable {charger : Firmware σ} {s₀ : σ}

lemma init (timeoutHint : Option String) (password : Option ℤ) :
    (Station.init β timeoutHint password s₀).Inv charger s₀ where
  consistent := .init _ _
  owned := .init _ _
  heardBy :=
    { created := fun _ _ h => by cases h
      returned := fun _ _ h => by cases h
      replied := fun _ _ h => by cases h
      unborn := fun _ _ => rfl }
  served := ⟨[], s₀, rfl, .nil, .free rfl⟩

lemma step {s s' : Station σ β} {e : StationEvent β} (h : s.Inv charger s₀) (hP : Relayed s e)
    (hst : s.step charger e = some s') : s'.Inv charger s₀ := by
  cases e with
  | client e =>
    simp only [Station.step, Option.bind_eq_bind, Option.bind_eq_some_iff, Option.pure_def,
      Option.some.injEq] at hst
    obtain ⟨client, hclient, rfl⟩ := hst
    have hst : Step s.client e client := Step.of_step hclient
    refine ⟨h.consistent.step hst, h.owned.step hst, h.heardBy.step hst ?_ ?_,
      h.served.step h.heardBy h.consistent hst⟩
    · rintro i rfl
      exact hP
    · rintro payload register w rfl hw ha
      exact hP ⟨register, w⟩ (AList.mem_lookup_iff.1 hw) ha
  | heard i =>
    simp only [Station.step, Option.bind_eq_bind, Option.bind_eq_some_iff, Option.pure_def,
      Option.guard_eq_some', Option.some.injEq] at hst
    obtain ⟨task, ht, -, ⟨hr, hn⟩, rfl⟩ := hst
    exact ⟨h.consistent, h.owned, h.heardBy.hear h.consistent ht hr hn _,
      h.served.hear h.consistent h.owned ht hr hn⟩

end Station.Inv

section

variable {charger : Firmware σ} {timeoutHint : Option String} {password : Option ℤ} {s₀ : σ}
  {s t : Station σ β} {es : List (StationEvent β)}

lemma Station.inv_of_run (h : StationRun charger timeoutHint password s₀ Relayed es s) :
    s.Inv charger s₀ :=
  h.invariant (fun _ _ _ hu hP hst => hu.step hP hst) (.init _ _)

/-- A run of both is a run of the client. -/
lemma clientRun_of_station {P : Station σ β → StationEvent β → Prop}
    (h : Run (station charger timeoutHint password s₀) P s es t) :
    Run (machine β timeoutHint password) Always s.client (es.filterMap StationEvent.client?)
      t.client := by
  refine h.filterMap Station.client StationEvent.client? (fun s e e' t he hst => ?_)
    fun s e t he hst => ?_
  · cases e with
    | client e =>
      cases he
      simp only [station, Station.step, Option.bind_eq_bind, Option.bind_eq_some_iff,
        Option.pure_def, Option.some.injEq] at hst
      obtain ⟨client, hclient, rfl⟩ := hst
      exact hclient
    | heard i => cases he
  · cases e with
    | client e => cases he
    | heard i =>
      simp only [station, Station.step, Option.bind_eq_bind, Option.bind_eq_some_iff,
        Option.pure_def, Option.some.injEq] at hst
      obtain ⟨task, -, -, -, rfl⟩ := hst
      rfl

lemma mem_client? {e : Event β} : e ∈ es.filterMap StationEvent.client? ↔ .client e ∈ es := by
  rw [List.mem_filterMap]
  constructor
  · rintro ⟨e', he', heq⟩
    cases e' with
    | client e' =>
      cases heq
      exact he'
    | heard i => cases heq
  · exact fun he => ⟨_, he, rfl⟩

/-- Whatever calls are made at the same time, the charger and the jobs have come to what they would
have come to if the jobs had been done one after another, each at once, in the order in which they
had the lock. This order respects real time, and a call returns what its program makes of its
jobs. -/
theorem jobs_serialize (h : StationRun charger timeoutHint password s₀ Relayed es s) :
    (∃ H t frames, H.map Stage.op = s.client.blocks ∧ Serial charger.Serves s₀ H t ∧
      s.charger = charger.after t frames ∧ (s.client.lock = none → frames = []) ∧
      ∀ hd, s.client.lock = some hd → frames <+: hd.job.frames) ∧
    (∀ es₁ es₂ v, es = es₁ ++ es₂ → StationRun charger timeoutHint password s₀ Relayed es₁ v →
      ∃ bs, s.client.blocks = bs ++ v.client.blocks ∧
        (∀ b ∈ v.client.blocks, v.client.calls b.call ≠ none) ∧
        ∀ b ∈ bs, ∀ r cn, v.client.calls b.call ≠ some ⟨.finished r, cn⟩) ∧
    ∀ c p n r cn, .client (.spawn c p n) ∈ es → s.client.calls c = some ⟨.finished r, cn⟩ →
      (∃ tr, p.Residual tr (.pure r) ∧ Logged c tr (s.client.blocksOf c)) ∨
        r = .error .cancelledError ∧ s.client.blocksOf c = [] := by
  refine ⟨?_, ?_, ?_⟩
  · obtain ⟨H, t, hH, ht, hm⟩ := (Station.inv_of_run h).served
    obtain ⟨frames, hframes⟩ := hm.exists_frames
    exact ⟨H, t, frames, hH, ht, hframes⟩
  · rintro es₁ es₂ v rfl hv
    obtain ⟨v', hv', hrest⟩ := h.of_append
    obtain rfl := hv.unique hv'
    obtain ⟨bs, hbs, hnot⟩ :=
      blocks_of_run (clientRun_of_station hrest) (Station.inv_of_run hv).consistent
    exact ⟨bs, hbs, fun b hb => calls_of_block (clientRun_of_station hv) hb,
      fun b hb r cn hc => hnot b hb r ⟨_, _, hc, .inr rfl⟩⟩
  · intro c p n r cn hspawn hc
    have hrun : ClientRun timeoutHint password Always _ s.client := clientRun_of_station h
    cases traced_of_run hrun (mem_client?.2 hspawn) (.finished hc) with
    | went hres hl => exact .inl ⟨_, hres, hl⟩
    | cancelled hp hb =>
      cases hp
      exact .inr ⟨rfl, hb⟩

end

/-- A charger that answers with the number of frames it has heard. -/
def countingCharger : Firmware ℕ := fun n frame =>
  (n + 1, some (Frame.mk frame.register frame.flag (Word.ofNat n)).bytes)

/-- Two calls read the state, and the second waits for the first. -/
def readBothEvents : List (StationEvent ℕ) :=
  [.client (.link true), .client (.spawn 0 (id <$> asyncGetStateValue).run 0),
    .client (.spawn 1 (id <$> asyncGetStateValue).run 0), .client (.run 0), .client (.run 1),
    .client (.run 1), .client (.run 0), .client (.run 1), .client (.sendStart 0), .heard 0,
    .client (.sendEnd 0 .returned),
    .client (.notify [0x10, 0xAC, 0x67, 0x00, 0x00, 0x00, 0x00, 0x00]), .client (.run 1),
    .client (.run 0), .client (.sendStart 1), .heard 1,
    .client (.notify [0x10, 0xAC, 0x67, 0x00, 0x00, 0x00, 0x00, 0x01]),
    .client (.sendEnd 1 .returned), .client (.run 0), .client (.run 1), .client (.run 0)]

theorem jobs_serialize_read_both :
    ∃ s : Station ℕ ℕ, StationRun countingCharger none none 0 Relayed readBothEvents s ∧
      (∃ cn, s.client.calls 0 = some ⟨.finished (.ok 1), cn⟩) ∧
      ∃ H t, H.map Stage.op = s.client.blocks ∧ Serial countingCharger.Serves 0 H t := by
  have h : StationRun countingCharger none none 0 Relayed readBothEvents _ := Run.of_exec rfl
  obtain ⟨⟨H, t, -, hH, ht, -⟩, -⟩ := jobs_serialize h
  exact ⟨_, h, ⟨_, rfl⟩, H, t, hH, ht⟩

end SpinevBle
