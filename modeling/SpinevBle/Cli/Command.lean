import SpinevBle.Link.Course
import SpinevBle.Link.Effects

/-!
# Commands of the command line tool

A command is a script that prints, and that may end early. The tool opens the link around what a
command does, and closes it in any case. As for a script, it is known what comes of a command over a
peer that answers frames.
-/

namespace SpinevBle

open Interaction

/-! ### The code of a command -/

/-- How a command ends before its end. -/
inductive Exit
  | systemExit (message : String)
  | raised (err : Failure)
  deriving DecidableEq

/-- The code of a command, which calls a client and prints lines. -/
abbrev Cli := ExceptT Exit (StateT (List String) (Prog ClientCall ClientCall.Result))

namespace Cli

variable {α γ : Type}

def call (c : ClientCall) : Cli c.Result :=
  ExceptT.lift (StateT.lift (Prog.op c .pure))

def print (line : String) : Cli Unit :=
  ExceptT.lift (modify fun printed => printed ++ [line])

def exit (e : Exit) : Cli α := throw e

def orExit : Except Exit α → Cli α
  | .ok a => pure a
  | .error e => exit e

/-- Call a method of the client, which may raise. -/
def ask (m : Method) : Cli m.Result := do
  orExit ((← call (.method m)).mapError .raised)

/-- `async with await _open(args) as charger`, for a charger that is found. -/
def withCharger (body : Cli α) : Cli α := do
  call .connect
  let r ← ExceptT.lift body.run
  call .disconnect
  orExit r

/-- The calls of a command. -/
def script (x : Cli Unit) : Script := (fun _ => ()) <$> x.run.run []

/-! ### The calls of a command -/

/-- Whatever its calls come to, the code makes no others than these. -/
def Calls (A : ClientCall → Prop) (x : Cli α) : Prop :=
  ∀ printed, (x.run.run printed).Meets ⟨A, fun _ _ => True⟩ fun _ => True

namespace Calls

variable {A : ClientCall → Prop} {x : Cli α} {f : α → Cli γ}

lemma pure (a : α) : Calls A (Pure.pure a) := fun _ => Prog.Meets.pure_iff.2 trivial

lemma exit (e : Exit) : Calls A (Cli.exit e : Cli α) := fun _ => Prog.Meets.pure_iff.2 trivial

lemma print (line : String) : Calls A (Cli.print line) := fun _ => Prog.Meets.pure_iff.2 trivial

lemma orExit (r : Except Exit α) : Calls A (Cli.orExit r) := by
  cases r with
  | ok a => exact .pure a
  | error e => exact .exit e

lemma call {c : ClientCall} (hc : A c) : Calls A (Cli.call c) := fun _ =>
  Prog.Meets.op_iff.2 ⟨hc, fun _ _ => Prog.Meets.pure_iff.2 trivial⟩

lemma bind (h : Calls A x) (hf : ∀ a, Calls A (f a)) : Calls A (x >>= f) := by
  intro printed
  refine Prog.Meets.bind (h printed) ?_
  rintro ⟨r, printed⟩ -
  cases r with
  | ok a => exact hf a printed
  | error e => exact Prog.Meets.pure_iff.2 trivial

lemma attempt (h : Calls A x) : Calls A (ExceptT.lift x.run) := by
  intro printed
  refine Prog.Meets.bind (h printed) ?_
  rintro ⟨r, printed⟩ -
  exact Prog.Meets.pure_iff.2 trivial

lemma ask {m : Method} (hm : A (.method m)) : Calls A (Cli.ask m) :=
  (Calls.call hm).bind fun _ => .orExit _

lemma withCharger (hconnect : A .connect) (hdisconnect : A .disconnect) (h : Calls A x) :
    Calls A (Cli.withCharger x) :=
  (Calls.call hconnect).bind fun _ => h.attempt.bind fun r =>
    (Calls.call hdisconnect).bind fun _ => .orExit r

lemma script {x : Cli Unit} (h : Calls A x) : x.script.Calls A :=
  (h []).map fun _ _ => trivial

end Calls

/-! ### Commands over a peer -/

variable {σ : Type} {peer : Peer σ} {hint : Option String} {e e' e'' : Ending σ}

/-- Run on its own, the code comes to `r`, prints the lines and leaves the ending `e'`. -/
def Leads (peer : Peer σ) (hint : Option String) (x : Cli α) (e : Ending σ) (r : Except Exit α)
    (lines : List String) (e' : Ending σ) : Prop :=
  ∀ printed, (x.run.run printed).exec (World.call peer hint) e = ((r, printed ++ lines), e')

namespace Leads

variable {x : Cli α} {f : α → Cli γ} {lines lines' : List String}

lemma pure (a : α) : Leads peer hint (Pure.pure a) e (.ok a) [] e := by
  intro printed
  rw [List.append_nil]
  rfl

lemma exit (c : Exit) : Leads peer hint (Cli.exit c : Cli α) e (.error c) [] e := by
  intro printed
  rw [List.append_nil]
  rfl

lemma orExit (r : Except Exit α) : Leads peer hint (Cli.orExit r) e r [] e := by
  cases r with
  | ok a => exact .pure a
  | error c => exact .exit c

lemma print (line : String) : Leads peer hint (Cli.print line) e (.ok ()) [line] e :=
  fun _ => rfl

lemma call (c : ClientCall) : Leads peer hint (Cli.call c) e (.ok (World.call peer hint c e).1) []
    (World.call peer hint c e).2 := by
  intro printed
  rw [List.append_nil]
  rfl

lemma bind {a : α} {r : Except Exit γ} (h : Leads peer hint x e (.ok a) lines e')
    (hf : Leads peer hint (f a) e' r lines' e'') :
    Leads peer hint (x >>= f) e r (lines ++ lines') e'' := by
  intro printed
  refine (Prog.exec_bind _ (x.run.run printed) _ e).trans ?_
  rw [h printed, ← List.append_assoc]
  exact hf _

lemma bind_error {c : Exit} (h : Leads peer hint x e (.error c) lines e') :
    Leads peer hint (x >>= f) e (.error c) lines e' := by
  intro printed
  refine (Prog.exec_bind _ (x.run.run printed) _ e).trans ?_
  rw [h printed]
  rfl

lemma attempt {r : Except Exit α} (h : Leads peer hint x e r lines e') :
    Leads peer hint (ExceptT.lift x.run) e (.ok r) lines e' := by
  intro printed
  refine (Prog.exec_bind _ (x.run.run printed) _ e).trans ?_
  rw [h printed]
  rfl

lemma ask {m : Method} {w w' : World σ} {log : List Entry} {r : Except Exc m.Result}
    (h : Client.Gives peer hint m.program w r w') :
    Leads peer hint (Cli.ask m) (log, w) ((coarse r).mapError .raised) []
      (log ++ [⟨m, coarse r⟩], w') := by
  have hcall : World.call peer hint (.method m) (log, w) =
      (coarse r, log ++ [⟨m, coarse r⟩], w') := by
    have h : m.program.run.exec (World.act peer hint) w = (r, w') := h
    rw [World.call, h]
  have hleads : Leads peer hint (Cli.call (.method m)) (log, w) _ [] _ := .call (.method m)
  rw [hcall] at hleads
  exact hleads.bind (.orExit _)

/-- The link is opened, and closed however the body ends. -/
lemma withCharger {w w' : World σ} {log log' : List Entry} {r : Except Exit α}
    (h : Leads peer hint x (log, { w with connected := true }) r lines (log', w')) :
    Leads peer hint (Cli.withCharger x) (log, w) r lines
      (log', { w' with connected := false }) := by
  have hopen : Leads peer hint (Cli.call .connect) (log, w) (.ok ()) []
      (log, { w with connected := true }) := .call .connect
  have hclose : Leads peer hint (Cli.call .disconnect) (log', w') (.ok ()) []
      (log', { w' with connected := false }) := .call .disconnect
  have hrest : Leads peer hint (do
      let r ← ExceptT.lift x.run
      Cli.call .disconnect
      Cli.orExit r) (log, { w with connected := true }) r (lines ++ ([] ++ []))
      (log', { w' with connected := false }) :=
    h.attempt.bind (hclose.bind (.orExit r))
  rw [List.append_nil, List.append_nil] at hrest
  exact hopen.bind hrest

end Leads

/-- The same, whatever is printed. -/
def ComesTo (peer : Peer σ) (hint : Option String) (x : Cli α) (e : Ending σ) (r : Except Exit α)
    (e' : Ending σ) : Prop :=
  ∃ lines, Leads peer hint x e r lines e'

lemma Leads.comesTo {x : Cli α} {r : Except Exit α} {lines : List String}
    (h : Leads peer hint x e r lines e') : ComesTo peer hint x e r e' :=
  ⟨lines, h⟩

namespace ComesTo

variable {x : Cli α} {f : α → Cli γ}

lemma bind {a : α} {r : Except Exit γ} (h : ComesTo peer hint x e (.ok a) e')
    (hf : ComesTo peer hint (f a) e' r e'') : ComesTo peer hint (x >>= f) e r e'' := by
  obtain ⟨lines, h⟩ := h
  obtain ⟨lines', hf⟩ := hf
  exact ⟨lines ++ lines', h.bind hf⟩

lemma bind_error {c : Exit} (h : ComesTo peer hint x e (.error c) e') :
    ComesTo peer hint (x >>= f) e (.error c) e' :=
  h.imp fun _ => Leads.bind_error

lemma withCharger {w w' : World σ} {log log' : List Entry} {r : Except Exit α}
    (h : ComesTo peer hint x (log, { w with connected := true }) r (log', w')) :
    ComesTo peer hint (Cli.withCharger x) (log, w) r (log', { w' with connected := false }) :=
  h.imp fun _ => Leads.withCharger

end ComesTo

/-- Every finished run of a command ends as the command does on its own. -/
theorem ending_of_script {x : Cli Unit} {s : σ} {known : Option ℤ} {es : List LineEvent}
    {t : Line σ} (hp : peer.Echoes) (hscript : x.script.Plain) {r : Except Exit Unit} {e : Ending σ}
    (hx : ComesTo peer hint x ([], ⟨s, false, known⟩) r e)
    (h : LineRun peer hint known x.script s es t) (hf : t.session.Finished) :
    (t.session.log, t.world) = e := by
  obtain ⟨lines, hx⟩ := hx
  rw [ending_of_run hp hscript h hf, script, Prog.exec_map, hx]

end Cli

end SpinevBle
