import SpinevBle.Charger.Calls
import SpinevBle.Charger.Methods

/-!
# Settings and their commit

A setter writes its frames under one lock and commits them under another. The frames of a setter
are never a commit, so a commit that a setter sends is its own, and by then the charger has all of
the setter's frames.
-/

namespace SpinevBle

open Asyncio Interaction Transition

variable {β : Type} {s t : State β} {c : ℕ}

/-! ### No setting is a commit -/

/-- None of the frames is a commit. -/
def NoCommit (frames : List Frame) : Prop := ∀ f ∈ frames, f.register ≠ Register.commit.value

/-- No setting is a commit. -/
lemma Setter.noCommit {setter : Setter} {frames : List Frame} (h : setter.frames = .ok frames) :
    NoCommit frames := by
  intro f hf hc
  obtain ⟨-, r, hr, he⟩ := setter.writes h f hf
  have hne : ∀ r ∈ setter.registers, r.value ≠ Register.commit.value := by
    cases setter <;> simp only [Setter.registers] <;> decide
  exact hne r hr (he.symm.trans hc)

/-! ### Setters keep to their contract -/

/-- The jobs that a setter may start: its frames, a read of the state before a change of the
current limit, and the commit once the charger has all the frames. -/
inductive Setter.Allows (setter : Setter) (c : ℕ) (s : State β) : Job → Prop
  | setting {frames} (hf : setter.frames = .ok frames) : Allows setter c s (.writeFrames frames)
  | limit {frame} (hf : setter.frames = .ok [frame]) :
      Allows setter c s (.request frame Register.currentLimit.value)
  | state {frame} (hr : frame.register = Register.state.value) :
      Allows setter c s (.request frame frame.register)
  | commit {frame frames ids} (hc : buildCommit = .ok frame) (hf : setter.frames = .ok frames)
      (hd : List.Forall₂ (s.Delivered c) ids frames) : Allows setter c s (.writeFrames [frame])

variable {setter : Setter}

lemma Setter.Allows.later {j : Job} (h : setter.Allows c s j) (hst : Later s t) :
    setter.Allows c t j := by
  cases h with
  | setting hf => exact .setting hf
  | limit hf => exact .limit hf
  | state hr => exact .state hr
  | commit hc hf hd => exact .commit hc hf (hd.imp fun _ _ h => hst.delivered h)

/-- The commit is the only job of a setter with a commit among its frames. -/
lemma Setter.Allows.delivered {j : Job} (h : setter.Allows c s j) {f : Frame} (hf : f ∈ j.frames)
    (hr : f.register = Register.commit.value) :
    ∃ frames ids, setter.frames = .ok frames ∧ List.Forall₂ (s.Delivered c) ids frames := by
  cases h with
  | setting hfs => exact absurd hr (setter.noCommit hfs f hf)
  | limit hfs => exact absurd hr (setter.noCommit hfs f hf)
  | state hs =>
    obtain rfl : f = _ := by simpa [Job.frames] using hf
    rw [hs] at hr
    exact absurd hr (by decide)
  | commit _ hfs hd => exact ⟨_, _, hfs, hd⟩

/-- What a setter may do: it may end anywhere, but starts only the jobs that it is allowed. -/
abbrev Setter.Keeps (setter : Setter) (c : ℕ) {α : Type} (x : Client α) (s : State β) : Prop :=
  Client.Ensures (callContract c (setter.Allows c)) (fun _ _ => True) x s

private lemma keeps_raising {α : Type} (x : Except Exc α) : setter.Keeps c (raising x) s :=
  .raising fun _ _ _ _ => trivial

private lemma pre_locked {j : Job} (h : setter.Allows c s j) :
    (callContract c (setter.Allows c)).pre s (.locked j) := by
  rintro _ ⟨rfl⟩
  exact h

private lemma keeps_commitIf {frames : List Frame} (hf : setter.frames = .ok frames)
    (hd : ∃ ids, List.Forall₂ (s.Delivered c) ids frames) (commit : Bool) :
    setter.Keeps c (commitIf commit) s := by
  obtain ⟨ids, hd⟩ := hd
  cases commit with
  | false => exact .ok fun _ _ => trivial
  | true =>
    have hframe : Client.Ensures (callContract c (setter.Allows c))
        (fun _ frame => buildCommit = .ok frame) (raising buildCommit) s :=
      .raising fun _ h _ _ => h
    refine hframe.bind fun t frame hst hc => ?_
    refine .locked (.writeFrames [frame]) (fun u htu => pre_locked ?_) fun _ _ _ _ _ _ => trivial
    exact .commit hc hf (hd.imp fun _ _ h => (hst.trans htu).delivered h)

private lemma keeps_writeSetting (commit : Bool) :
    setter.Keeps c (writeSetting setter.frames commit) s := by
  have hframes : Client.Ensures (callContract c (setter.Allows c))
      (fun _ frames => setter.frames = .ok frames) (raising setter.frames) s :=
    .raising fun _ h _ _ => h
  refine hframes.bind fun t frames _ hf => ?_
  have hwritten : Client.Ensures (callContract c (setter.Allows c))
      (fun t _ => ∃ ids, List.Forall₂ (t.Delivered c) ids frames) (writeFrames frames) t := by
    refine .locked (.writeFrames frames) (fun u _ => pre_locked (.setting hf)) ?_
    rintro u v _ - ⟨ids, hd⟩ huv
    exact ⟨ids, hd.imp fun _ _ h => huv.delivered h⟩
  exact hwritten.bind fun u _ _ hd => keeps_commitIf hf hd commit

private lemma keeps_state : setter.Keeps c asyncGetStateValue s := by
  have hframe : Client.Ensures (callContract c (setter.Allows c))
      (fun _ (frame : Frame) => frame.register = Register.state.value)
      (raising (buildRead Register.state.id)) s := by
    refine .raising fun frame h _ _ => ?_
    rw [buildRead_id] at h
    exact register_buildReadOf h
  have hraw : setter.Keeps c (asyncReadRaw Register.state.id) s := by
    refine hframe.bind fun t frame _ hr => ?_
    refine .bind (.locked (.request frame frame.register) (fun u _ => pre_locked (.state hr))
      fun _ _ _ _ _ _ => trivial) fun u payload _ _ => keeps_raising _
  exact hraw.bind fun _ _ _ _ => keeps_raising _

private lemma keeps_currentLimit (amps maxAmps : PyFloat) (allow commit : Bool) :
    (Setter.currentLimit amps maxAmps allow).Keeps c
      (asyncSetCurrentLimit amps maxAmps commit allow) s := by
  have hwrite : ∀ t : State β, (Setter.currentLimit amps maxAmps allow).Keeps c (do
      let frame ← raising (buildWriteFloat .currentLimit amps)
      let _ ← request frame Register.currentLimit.value
      commitIf commit) t := by
    intro t
    have hframe : Client.Ensures
        (callContract c ((Setter.currentLimit amps maxAmps allow).Allows c))
        (fun _ frame => (Setter.currentLimit amps maxAmps allow).frames = .ok [frame])
        (raising (buildWriteFloat .currentLimit amps)) t :=
      .raising fun frame h _ _ => by simp [Setter.frames, h]
    refine hframe.bind fun u frame _ hf => ?_
    have hsent : Client.Ensures (callContract c ((Setter.currentLimit amps maxAmps allow).Allows c))
        (fun t _ => ∃ ids, List.Forall₂ (t.Delivered c) ids [frame])
        (request frame Register.currentLimit.value) u := by
      refine .locked (.request frame Register.currentLimit.value)
        (fun v _ => pre_locked (.limit hf)) ?_
      rintro v w _ - ⟨i, hd, -⟩ hvw
      exact ⟨[i], .cons (hvw.delivered hd) .nil⟩
    exact hsent.bind fun v _ _ hd => keeps_commitIf hf hd commit
  unfold asyncSetCurrentLimit
  refine .ite (fun _ => .throw_bind) fun _ => .ite (fun _ => ?_) fun _ => hwrite s
  exact keeps_state.bind fun t state _ _ => .ite (fun _ => .throw_bind) fun _ => hwrite t

/-- Every setter keeps to its contract. -/
lemma Setter.keeps (setter : Setter) (commit : Bool) :
    setter.Keeps c (setter.program commit) s := by
  cases setter with
  | currentLimit amps maxAmps allow => exact keeps_currentLimit amps maxAmps allow commit
  | _ => exact keeps_writeSetting commit

/-! ### Blocks and commits -/

/-- The frames on the wire come in blocks, one for each job: whole ones where the job ended well,
and nothing of another call between the frames of one. The blocks of a setter are its frames and,
once the charger has them all, its commit. -/
theorem configuration_blocks {timeoutHint : Option String} {password : Option ℤ}
    {es : List (Event β)} (h : ClientRun timeoutHint password Always es s) :
    (∃ pieces current, s.wire = pieces.reverse.flatten ++ current ∧
      List.Forall₂ s.Closed s.blocks pieces ∧
      (s.lock = none → current = []) ∧
      ∀ hd, s.lock = some hd → s.Piece hd.call hd.job current) ∧
    (∀ c (setter : Setter) commit (f : Unit → β) n,
      .spawn c (f <$> setter.program commit).run n ∈ es →
      (∀ frames, setter.frames = .ok frames → NoCommit frames) ∧
      (∀ b ∈ s.blocks, b.call = c → setter.Allows c s b.job) ∧
      (∀ hd, s.lock = some hd → hd.call = c → setter.Allows c s hd.job) ∧
      ∀ i ∈ s.wire, ∀ frame, s.Carries c i frame → frame.register = Register.commit.value →
        ∃ frames ids, setter.frames = .ok frames ∧ List.Forall₂ (s.Delivered c) ids frames) := by
  have hs := State.consistent_of_run h
  obtain ⟨pieces, current, hcut⟩ := cut_of_run h
  refine ⟨⟨pieces, current, hcut.1, hcut.2.1, fun hl => (State.current_of_free hl).1 hcut.2.2,
    fun hd hl => hcut.2.2.piece_of_lock hs hl⟩, fun c setter commit f n hspawn => ?_⟩
  have hkeeps : ∀ t : State β, setter.Keeps c (f <$> setter.program commit) t := fun t =>
    (setter.keeps commit).map fun _ _ _ _ _ => trivial
  have hsup : Supervised c (setter.Allows c) (fun _ r => ∀ a, r = .ok a → True) s :=
    supervised_of_run (fun _ _ _ hst h => h.later hst) (fun _ _ _ => trivial) h hspawn
      fun t => (hkeeps t).run
  refine ⟨fun _ => setter.noCommit, hsup.jobs, fun hd hl hc => hsup.pre_of_lock hl hc,
    fun i hi frame hf hr => ?_⟩
  obtain ⟨j, hj, hallow⟩ := hsup.pre_of_wire hs hcut hi hf
  exact hallow.delivered hj hr

/-- Half past eight in the morning, on 17 May 2024. -/
def aMoment : DateTime := ⟨2024, 5, 17, 8, 30, 0, by decide⟩

/-- The clock is set in two frames and committed, while another commit waits for the lock. -/
def syncClockEvents : List (Event Unit) :=
  [.link true, .spawn 0 (id <$> (Setter.syncClock aMoment none).program true).run 0,
    .spawn 1 asyncCommit 0, .run 0, .run 0, .run 0, .run 1, .run 1, .sendStart 0,
    .sendEnd 0 .returned, .run 0, .sendStart 1, .sendEnd 1 .returned, .run 0, .run 0, .run 0,
    .sendStart 2]

theorem configuration_blocks_sync_clock :
    ∃ s, ClientRun none none Always syncClockEvents s ∧ s.wire = [0, 1, 2] ∧
      ∃ frames ids, clockFrames aMoment = .ok frames ∧
        List.Forall₂ (s.Delivered 0) ids frames := by
  have h : ClientRun none none Always syncClockEvents _ := Run.of_exec rfl
  have hsetter := (configuration_blocks h).2 0 (.syncClock aMoment none) true id 0
    (.tail _ (.head _))
  exact ⟨_, h, rfl, hsetter.2.2.2 2 (by decide) _ ⟨_, rfl⟩ rfl⟩

end SpinevBle
