import SpinevBle.Link.Standing

/-!
# What methods do to their world

Rules for running a method on nothing but a peer that answers frames: the result that it gives, and
the world that it leaves.
-/

namespace SpinevBle

open Interaction

variable {σ : Type} {peer : Peer σ} {hint : Option String} {α γ : Type}

/-- Run on its own, the code gives `r` and leaves the world `w'`. -/
def Client.Gives (peer : Peer σ) (hint : Option String) (x : Client α) (w : World σ)
    (r : Except Exc α) (w' : World σ) : Prop :=
  x.run.exec (World.act peer hint) w = (r, w')

namespace Client.Gives

variable {w w' w'' : World σ} {x : Client α} {f : α → Client γ}

lemma ok (a : α) : Gives peer hint (pure a) w (.ok a) w := rfl

lemma raising (r : Except Exc α) : Gives peer hint (raising r) w r w := rfl

lemma bind {a : α} {r : Except Exc γ} (h : Gives peer hint x w (.ok a) w')
    (hf : Gives peer hint (f a) w' r w'') : Gives peer hint (x >>= f) w r w'' := by
  refine (Prog.exec_bind _ x.run (ExceptT.bindCont f) w).trans ?_
  rw [h]
  exact hf

lemma bind_error {e : Exc} (h : Gives peer hint x w (.error e) w') :
    Gives peer hint (x >>= f) w (.error e) w' := by
  refine (Prog.exec_bind _ x.run (ExceptT.bindCont f) w).trans ?_
  rw [h]
  rfl

lemma map {a : α} (h : Gives peer hint x w (.ok a) w') (g : α → γ) :
    Gives peer hint (g <$> x) w (.ok (g a)) w' :=
  h.bind (ok (g a))

lemma map_error {e : Exc} (h : Gives peer hint x w (.error e) w') (g : α → γ) :
    Gives peer hint (g <$> x) w (.error e) w' :=
  h.bind_error

/-- Code that does not raise needs no handler. -/
lemma handle {a : α} {g : Exc → Client α} (h : Gives peer hint x w (.ok a) w') :
    Gives peer hint (tryCatch x g) w (.ok a) w' := by
  refine (Prog.exec_bind _ x.run _ w).trans ?_
  rw [h]
  rfl

lemma handle_error {e : Exc} {g : Exc → Client α} {r : Except Exc α}
    (h : Gives peer hint x w (.error e) w') (hg : Gives peer hint (g e) w' r w'') :
    Gives peer hint (tryCatch x g) w r w'' := by
  refine (Prog.exec_bind _ x.run _ w).trans ?_
  rw [h]
  exact hg

/-- Where there is no link, nothing is sent. -/
lemma offline (j : Job) (hw : w.connected = false) :
    Gives peer hint (locked j) w (.error notConnected) w := by
  change Prog.exec _ (.op (Op.locked j) .pure) w = _
  simp [Prog.exec, World.act, hw]

/-- A request whose frame the peer answers. -/
lemma request {frame : Frame} {register : UInt8} {s : σ} {reply : Reply} {v : Except Exc Bytes}
    (hw : w.connected = true) (hp : peer w.peer frame = (s, reply))
    (hv : (Job.request frame register).settled hint frame reply = some v) :
    Gives peer hint (request frame register) w v { w with peer := s } := by
  change Prog.exec _ (.op (Op.locked (.request frame register)) .pure) w = _
  simp only [Prog.exec, World.act, hw, if_true, Job.frames, World.deliver, hp, hv]

/-- Frames that the peer takes, one after the other. -/
lemma writeFrames {frames : List Frame} (hw : w.connected = true)
    (hp : ∀ s f, (peer s f).2.outcome = some .returned) :
    Gives peer hint (writeFrames frames) w (.ok ())
      { w with peer := frames.foldl (fun s f => (peer s f).1) w.peer } := by
  have hdeliver : ∀ (fs : List Frame) (w : World σ),
      w.deliver peer hint (.writeFrames frames) fs =
        (.ok (), { w with peer := fs.foldl (fun s f => (peer s f).1) w.peer }) := by
    intro fs
    induction fs with
    | nil => exact fun _ => rfl
    | cons f fs ih =>
      intro w
      have ho := hp w.peer f
      rcases hpeer : peer w.peer f with ⟨s, reply⟩
      rw [hpeer] at ho
      have hsettled : (Job.writeFrames frames).settled hint f reply = none := by
        cases reply with
        | nothing | payload => rfl
        | refused err | raised err => cases err <;> cases ho
        | hung => cases ho
      simp only [World.deliver, List.foldl_cons, hpeer, hsettled, ih]
  change Prog.exec _ (.op (Op.locked (.writeFrames frames)) .pure) w = _
  simp only [Prog.exec, World.act, hw, if_true, Job.frames, hdeliver]

end Client.Gives

/-! ### What a script leaves alone -/

/-- The frames of all the jobs that may be asked for have the property. -/
def framesOnly (F : Frame → Prop) : Promise Op Op.Result where
  asks o := ∀ j, o = .locked j → ∀ f ∈ j.frames, F f
  answers _ _ := True

lemma framesOnly_covers {F : Frame → Prop} {m : Method}
    (h : ∀ j, m.Issues j → ∀ f ∈ j.frames, F f) : Covers (framesOnly F) (fun _ => True) m :=
  covers_of_jobs h

/-- What no frame of a job changes, the job does not change. -/
lemma World.deliver_keeps {F : Frame → Prop} {I : σ → Prop}
    (hI : ∀ s f, F f → I s → I (peer s f).1) (j : Job) {frames : List Frame}
    (hf : ∀ f ∈ frames, F f) {w : World σ} (hw : I w.peer) :
    I (w.deliver peer hint j frames).2.peer := by
  induction frames generalizing w with
  | nil => exact hw
  | cons f frames ih =>
    obtain ⟨hf, hfs⟩ := List.forall_mem_cons.1 hf
    have hnext := hI w.peer f hf hw
    simp only [World.deliver]
    split
    · exact hnext
    · exact ih hfs hnext

/-- What no frame of its calls changes, a script does not change. -/
lemma Script.keeps {A : ClientCall → Prop} {F : Frame → Prop} {I : σ → Prop} {script : Script}
    (h : script.Calls A) (hA : ∀ m, A (.method m) → ∀ j, m.Issues j → ∀ f ∈ j.frames, F f)
    (hI : ∀ s f, F f → I s → I (peer s f).1) {e : Ending σ} (he : I e.2.peer) :
    I (script.exec (World.call peer hint) e).2.2.peer := by
  have hcall : ∀ (call : ClientCall) (e : Ending σ), A call → I e.2.peer →
      True ∧ I (World.call peer hint call e).2.2.peer := by
    intro call e hcall he
    refine ⟨trivial, ?_⟩
    cases call with
    | connect | disconnect => exact he
    | method m =>
      have hop : ∀ (o : Op) (w : World σ), (framesOnly F).asks o → I w.peer →
          True ∧ I (World.act peer hint o w).2.peer := by
        intro o w ho hw
        refine ⟨trivial, ?_⟩
        cases o with
        | getPassword | setPassword => exact hw
        | locked j =>
          simp only [World.act]
          split_ifs
          · exact World.deliver_keeps hI j (ho j rfl) hw
          · exact hw
      have hmeets := (within_of_covers (framesOnly_covers (hA m hcall))).meets
      exact (hmeets.exec (I := fun w : World σ => I w.peer) hop he).2
  exact (h.exec (I := fun e : Ending σ => I e.2.peer) hcall he).2

/-! ### Scripts of one call after the other -/

/-- Connect, and call the methods one after the other, whatever they come to. -/
def callAll (ms : List Method) : Script :=
  .op .connect fun _ => ms.foldr (fun m rest => .op (.method m) fun _ => rest) (.pure ())

/-- The same, after any other calls. -/
def Script.thenCall (before : Script) (ms : List Method) : Script := before >>= fun _ => callAll ms

lemma callAll_calls {A : ClientCall → Prop} {ms : List Method} (hconnect : A .connect)
    (hms : ∀ m ∈ ms, A (.method m)) : Script.Calls A (callAll ms) := by
  refine Prog.Meets.op_iff.2 ⟨hconnect, fun _ _ => ?_⟩
  induction ms with
  | nil => exact Prog.Meets.pure_iff.2 trivial
  | cons m ms ih =>
    obtain ⟨hm, hms⟩ := List.forall_mem_cons.1 hms
    exact Prog.Meets.op_iff.2 ⟨hm, fun _ _ => ih hms⟩

lemma Script.thenCall_calls {A : ClientCall → Prop} {before : Script} {ms : List Method}
    (h : before.Calls A) (hconnect : A .connect) (hms : ∀ m ∈ ms, A (.method m)) :
    Script.Calls A (before.thenCall ms) :=
  h.bind fun _ _ => callAll_calls hconnect hms

/-- The methods come to these results, one after the other. -/
inductive Results (peer : Peer σ) (hint : Option String) :
    World σ → List Method → List Entry → Prop
  | nil {w} : Results peer hint w [] []
  | cons {w w' m ms r entries} (h : Client.Gives peer hint m.program w r w')
      (hms : Results peer hint w' ms entries) :
      Results peer hint w (m :: ms) (⟨m, coarse r⟩ :: entries)

private lemma log_of_results {w : World σ} {ms : List Method} {entries : List Entry}
    (log : List Entry) (h : Results peer hint w ms entries) :
    ((ms.foldr (fun m rest => .op (.method m) fun _ => rest) (.pure ()) : Script).exec
      (World.call peer hint) (log, w)).2.1 = log ++ entries := by
  induction h generalizing log with
  | nil => simp [Prog.exec]
  | @cons w w' m ms r entries h _ ih =>
    have hcall : World.call peer hint (.method m) (log, w) =
        (coarse r, log ++ [⟨m, coarse r⟩], w') := by
      simp only [World.call]
      rw [h]
    simp only [List.foldr_cons, Prog.exec, hcall, ih]
    simp

/-- The calls are recorded after those before them. -/
lemma Script.log_thenCall {before : Script} {s : Ending σ} {ms : List Method}
    {entries : List Entry} (h : Results peer hint
      { (before.exec (World.call peer hint) s).2.2 with connected := true } ms entries) :
    ((before.thenCall ms).exec (World.call peer hint) s).2.1 =
      (before.exec (World.call peer hint) s).2.1 ++ entries := by
  rw [Script.thenCall, Prog.exec_bind]
  exact log_of_results _ h

/-- One call leaves the world that its method leaves. -/
lemma Script.exec_thenCall_one {before : Script} {s : Ending σ} {m : Method}
    {r : Except Exc m.Result} {w : World σ} (h : Client.Gives peer hint m.program
      { (before.exec (World.call peer hint) s).2.2 with connected := true } r w) :
    ((before.thenCall [m]).exec (World.call peer hint) s).2 =
      ((before.exec (World.call peer hint) s).2.1 ++ [⟨m, coarse r⟩], w) := by
  rw [Script.thenCall, Prog.exec_bind]
  simp only [callAll, List.foldr_cons, List.foldr_nil, Prog.exec, World.call]
  rw [h]

end SpinevBle
