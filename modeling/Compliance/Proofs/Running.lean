import Compliance.Proofs.Isolation

/-! A whole run on a file tree in closed form. Before the results are there it only looks at the tree,
and of what it leaves only so much depends on its stamp: how long it took, and the marks in the
envelope of the results. -/
namespace Compliance

namespace FileTree
variable (t : FileTree) (o : Options)

def summaryFiles (path : String) : Option (List String) :=
  match t.kind path with
  | some .file => some [path]
  | some .directory => some (((SummaryFiles.candidates (t.names path)).map (Path.join path)).filter
      fun p => t.kind p = some .file)
  | some .special | none => none

def settings : Except Fault Settings :=
  match o.settings with
  | none => .ok (Job.adjust o .default)
  | some path => (Settings.ofFile path (t.read path)).map (Job.adjust o)

def job : Except RunError Job :=
  if (t.kind o.input).isNone then .error (.inputNotFound o.input)
  else match t.settings o with
    | .error f => .error (.settings f)
    | .ok s =>
      match t.summaryFiles o.input with
      | none => .error (.invalidInput o.input)
      | some paths => .ok ⟨s, paths⟩

def attempts (j : Job) : List Attempt := Run.attempts t j.settings j.paths

private theorem onlyFiles_run (paths : List String) :
    (SummaryFiles.onlyFiles paths : InTree _).run t =
    (paths.filter fun p => t.kind p = some .file, t) := by
  induction paths with
  | nil => rfl
  | cons p ps ih =>
    rw [SummaryFiles.onlyFiles, InTree.run_bind (InTree.kind_run t p), InTree.run_bind ih, List.filter_cons]
    by_cases h : t.kind p = some .file
    · simp only [h, if_true, decide_true]
      rfl
    · simp only [h, if_false, decide_false, Bool.false_eq_true]
      rfl

theorem find_run (path : String) :
    (SummaryFiles.find path : InTree _).run t = (t.summaryFiles path, t) := by
  rw [SummaryFiles.find, InTree.run_bind (InTree.kind_run t path), summaryFiles]
  cases t.kind path with
  | none => rfl
  | some k =>
    cases k with
    | file => rfl
    | special => rfl
    | directory =>
      show (FileStore.names path >>= _ : InTree _).run t = _
      rw [InTree.run_bind (InTree.names_run t path), InTree.run_bind (t.onlyFiles_run _)]
      rfl

private theorem readSettings_run : (Job.readSettings o : InTree _).run t = (t.settings o, t) := by
  unfold Job.readSettings settings
  cases o.settings <;> rfl

private theorem read_run : (Job.read o : InTree _).run t = (t.job o, t) := by
  rw [Job.read, InTree.run_bind (InTree.kind_run t o.input), job]
  by_cases hnone : (t.kind o.input).isNone
  · rw [if_pos hnone, if_pos hnone]
    rfl
  rw [if_neg hnone, if_neg hnone, InTree.run_bind (t.readSettings_run o)]
  cases t.settings o with
  | error f => rfl
  | ok s =>
    show (SummaryFiles.find o.input >>= _ : InTree _).run t = _
    rw [InTree.run_bind (t.find_run o.input)]
    cases t.summaryFiles o.input <;> rfl

end FileTree

namespace Run
open Session (run_bind run_lift run_unless)

/-- A run whose session came to a result with a transcript. -/
def ofSession (p : Except RunError Nat × Transcript) : Run := ⟨p.1, p.2.output, p.2.events⟩

section
variable {t t' : FileTree} {o : Options} {j : Job} (stamp : RunStamp)

private theorem run_perform {p : Except RunError Nat × Transcript}
    (h : ((session (pure stamp) o : Session InTree _).run ⟨[], []⟩).run t = (p, t')) :
    (perform (pure stamp) o : InTree Run).run t = (ofSession p, t') := by
  rw [perform, InTree.run_bind h]
  rfl

private theorem perform_stopped {e : RunError} (hj : t.job o = .error e) :
    (perform (pure stamp) o : InTree Run).run t = (⟨.error e, [], []⟩, t) := by
  have hread := t.read_run o
  rw [hj] at hread
  refine run_perform (p := (.error e, ⟨[], []⟩)) stamp ?_
  rw [session, run_bind (run_lift hread _)]
  rfl

private theorem perform_empty (hj : t.job o = .ok j) (h : j.paths.isEmpty) :
    (perform (pure stamp) o : InTree Run).run t =
      (⟨.ok 0, if o.quiet then [] else Transcript.nothingFound o.input, []⟩, t) := by
  have hread := t.read_run o
  rw [hj] at hread
  refine run_perform
    (p := (.ok 0, Transcript.extend ⟨[], []⟩ o (Transcript.nothingFound o.input) [])) stamp ?_
  rw [session, run_bind (run_lift hread _)]
  dsimp only
  rw [if_pos h, run_unless]
  rfl

theorem perform_run (hj : t.job o = .ok j) (h : ¬ j.paths.isEmpty)
    {saved : Except RunError (Option String)} (hs : (saveResults o j.settings
      (Gathered.ofAttempts (t.attempts j)).entries stamp.file : InTree _).run t = (saved, t')) :
    (perform (pure stamp) o : InTree Run).run t =
      (ofSession (ending o j.settings stamp (t.attempts j) ⟨[], []⟩ saved), t') := by
  have hread := t.read_run o
  rw [hj] at hread
  refine run_perform stamp ?_
  rw [session, run_bind (run_lift hread _)]
  dsimp only
  rw [if_neg h]
  have hreport := report_run t o j.settings j.paths stamp ⟨[], []⟩
  dsimp only at hreport
  rw [show Run.attempts t j.settings j.paths = t.attempts j from rfl, hs] at hreport
  exact hreport

end

end Run

def Event.withoutDuration : Event → Event
  | .runCompleted total aggregated errors _ => .runCompleted total aggregated errors ""
  | e => e

namespace Transcript

def durationLabel : String := "  Duration:     "

def withoutDuration (line : String) : String :=
  if durationLabel.toList <+: line.toList then durationLabel else line

private theorem withoutDuration_label (time : String) :
    withoutDuration (durationLabel ++ time) = durationLabel := by
  rw [withoutDuration, String.toList_append, if_pos (List.prefix_append _ _)]

private theorem execution_withoutDuration (o : Options) (c : FileCounts) (stamp stamp' : RunStamp) :
    (execution o c stamp').map withoutDuration = (execution o c stamp).map withoutDuration := by
  have hline : ∀ r : RunStamp,
      withoutDuration ("  Duration:     " ++ r.seconds ++ "s") = durationLabel := by
    intro r
    rw [String.append_assoc]
    exact withoutDuration_label _
  rw [execution, execution]
  simp only [List.map_append, List.map_cons, hline]

private theorem body_withoutDuration (o : Options) (s : Settings) (as : List Attempt)
    (stamp stamp' : RunStamp) :
    (body o s as stamp').map withoutDuration = (body o s as stamp).map withoutDuration := by
  simp only [body, List.map_append, execution_withoutDuration o _ stamp stamp']

end Transcript

/-- An object with one of its members changed. -/
def Json.onMember (key : String) (f : Json → Json) : Json → Json
  | .object ms => .object (ms.map fun m => if m.1 = key then (m.1, f m.2) else m)
  | v => v

namespace Results

/-- A results file without the marks of the run that wrote it. -/
def unstamped (v : Json) : Json :=
  v.onMember "envelope" fun e =>
    (e.onMember "report_id" fun _ => .null).onMember "generated_at" fun _ => .null

/-- Whether two texts of results files differ in the marks of their runs at most. -/
def SameButStamp (a b : String) : Prop :=
  ∃ v w : Json, a = String.ofList v.pretty ∧ b = String.ofList w.pretty ∧ unstamped v = unstamped w

private theorem unstamped_fullJson (stamp stamp' : Stamp) (systems : List LinkSystem)
    (entries : List Entry) :
    unstamped (fullJson stamp systems entries) = unstamped (fullJson stamp' systems entries) := rfl

variable {format : Format} {stamp stamp' : Stamp} {systems : List LinkSystem} {entries : List Entry}
  {a b : String}

private theorem sameButStamp_text (ha : text format stamp systems entries = .ok a)
    (hb : text format stamp' systems entries = .ok b) : SameButStamp a b := by
  cases format with
  | summary =>
    cases ha
    cases hb
    exact ⟨_, _, rfl, rfl, rfl⟩
  | full =>
    rw [text] at ha hb
    split at ha
    next => cases ha
    next hbuilt =>
      rw [if_neg hbuilt] at hb
      cases ha
      cases hb
      exact ⟨_, _, rfl, rfl, unstamped_fullJson stamp stamp' systems entries⟩

/-- A results file with totals alone has no marks. -/
private theorem text_summary :
    text .summary stamp systems entries = text .summary stamp' systems entries :=
  rfl

end Results

namespace Run

/-- Trees that differ in the marks that a run leaves in its results file at most. -/
inductive Restamped (t : FileTree) (o : Options) : FileTree → FileTree → Prop where
  | same (left : FileTree) : Restamped t o left left
  | marks {left : FileTree} {requested a b : String} {p : Place} (asked : o.output = some requested)
      (at_place : t.place (outputPath t o requested) = .ok p)
      (content : left.node? p = some (.file (some a))) (texts : Results.SameButStamp a b) :
      Restamped t o left (left.put p (.file (some b)))

theorem Restamped.congr {t left left' : FileTree} {o o' : Options} (h : Restamped t o left left')
    (houtput : o'.output = o.output) (hformat : o'.format = o.format) :
    Restamped t o' left left' := by
  have hpath : ∀ requested, outputPath t o' requested = outputPath t o requested := by
    intro requested
    rw [outputPath, outputPath, hformat]
  cases h with
  | same => exact .same left
  | marks asked at_place content texts =>
    exact .marks (houtput.trans asked) (hpath _ ▸ at_place) content texts

/-- A run saves its results in a file at a place. -/
structure Saves (t : FileTree) (o : Options) (s : Settings) (entries : List Entry)
    (requested : String) (p : Place) (text : Results.Stamp → String) : Prop where
  asked : o.output = some requested
  built : entries ≠ []
  made : ∀ stamp, Results.text o.format stamp s.systems entries = .ok (text stamp)
  receives : t.Receives (outputPath t o requested) p

section
variable {t : FileTree} {o : Options} {s : Settings} {entries : List Entry} {requested : String}
  {p : Place} {text : Results.Stamp → String}

theorem Saves.run (h : Saves t o s entries requested p text) (stamp : Results.Stamp) :
    (saveResults o s entries stamp : InTree _).run t =
      (.ok (some (outputPath t o requested)), t.put p (.file (some (text stamp)))) := by
  rw [saveResults_run t o s stamp h.asked h.built (h.made stamp), h.receives.write]

/-- Two runs that save the same results in a file put their own marks into it. -/
private theorem Saves.restamped (h : Saves t o s entries requested p text)
    (stamp stamp' : Results.Stamp) :
    Restamped t o (t.put p (.file (some (text stamp)))) (t.put p (.file (some (text stamp')))) := by
  rw [← FileTree.put_put t p (.file (some (text stamp))) (.file (some (text stamp')))]
  exact .marks h.asked (FileTree.place_of_target h.receives.target)
    (FileTree.node?_put_self h.receives.notDirectory)
    (Results.sameButStamp_text (h.made stamp) (h.made stamp'))

/-- Either nothing is changed, and the end is the same for every stamp, or a file is written. -/
private theorem saveResults_cases (t : FileTree) (o : Options) (s : Settings)
    (entries : List Entry) :
    (∃ saved, ∀ stamp, (saveResults o s entries stamp : InTree _).run t = (saved, t)) ∨
      ∃ requested p text, Saves t o s entries requested p text := by
  by_cases hidle : o.output = none ∨ entries = []
  · exact .inl ⟨_, fun stamp => saveResults_idle t o s stamp hidle⟩
  obtain ⟨hasked, built⟩ := not_or.mp hidle
  obtain ⟨requested, asked⟩ := Option.ne_none_iff_exists'.mp hasked
  obtain ⟨text, made⟩ := Classical.axiomOfChoice fun stamp =>
    exists_text o.format stamp s.systems built
  have hrun := fun stamp => saveResults_run t o s stamp asked built (made stamp)
  obtain ⟨e, he⟩ | ⟨p, _, _, hw⟩ | ⟨p, receives⟩ :=
    FileTree.write_cases t (outputPath t o requested)
  · exact .inl ⟨_, fun stamp => by rw [hrun, he]⟩
  · exact .inl ⟨_, fun stamp => by rw [hrun, hw]⟩
  · exact .inr ⟨requested, p, text, asked, built, made, receives⟩

private theorem Saves.text_summary (h : Saves t o s entries requested p text)
    (hformat : o.format = .summary) (stamp stamp' : Results.Stamp) : text stamp' = text stamp := by
  have hmade := h.made
  rw [hformat] at hmade
  exact Except.ok.inj ((hmade stamp').symm.trans (Results.text_summary.trans (hmade stamp)))

end

section
variable (o : Options) (s : Settings) (stamp stamp' : RunStamp) (as : List Attempt)
  (saved : Except RunError (Option String))

private theorem ending_events (r : Transcript) :
    (ending o s stamp' as r saved).2.events.map Event.withoutDuration
      = (ending o s stamp as r saved).2.events.map Event.withoutDuration := by
  cases saved with
  | error e => rfl
  | ok path =>
    simp only [ending, Transcript.extend, List.map_append]
    rfl

private theorem ending_output (r : Transcript) :
    (ending o s stamp' as r saved).2.output.map Transcript.withoutDuration
      = (ending o s stamp as r saved).2.output.map Transcript.withoutDuration := by
  have hbody := Transcript.body_withoutDuration o s as stamp stamp'
  cases saved with
  | error e =>
    simp only [ending, Transcript.extend]
    split
    next => rfl
    next => rw [List.map_append, List.map_append, hbody]
  | ok path =>
    simp only [ending, Transcript.extend]
    split
    next => rfl
    next =>
      rw [List.map_append, List.map_append, List.map_append, List.map_append, hbody]

end

/-- What a run leaves is what another one left, but for the time that it took and its marks in the
results file. A results file with totals alone has no marks. -/
structure Repeats (t : FileTree) (o : Options) (once again : Run × FileTree) : Prop where
  result : again.1.result = once.1.result
  events : again.1.events.map Event.withoutDuration = once.1.events.map Event.withoutDuration
  output : again.1.output.map Transcript.withoutDuration
    = once.1.output.map Transcript.withoutDuration
  tree : Restamped t o once.2 again.2
  summary : o.format = .summary → again.2 = once.2

private theorem Repeats.refl (t : FileTree) (o : Options) (r : Run × FileTree) : Repeats t o r r :=
  ⟨rfl, rfl, rfl, .same r.2, fun _ => rfl⟩

private theorem Repeats.of_ending {t : FileTree} {o : Options} (s : Settings)
    (stamp stamp' : RunStamp)
    (as : List Attempt) (saved : Except RunError (Option String)) {left left' : FileTree}
    (tree : Restamped t o left left') (summary : o.format = .summary → left' = left) :
    Repeats t o (ofSession (ending o s stamp as ⟨[], []⟩ saved), left)
      (ofSession (ending o s stamp' as ⟨[], []⟩ saved), left') where
  result := (ending_result ..).trans (ending_result ..).symm
  events := ending_events ..
  output := ending_output ..
  tree := tree
  summary := summary

/-- Either a run saves its results in a file, or it leaves the tree as it is and comes to the same at
another time. -/
theorem perform_cases (t : FileTree) (o : Options) :
    (∀ stamp, ((perform (pure stamp) o : InTree Run).run t).2 = t ∧
      ∀ stamp', Repeats t o ((perform (pure stamp) o : InTree Run).run t)
        ((perform (pure stamp') o : InTree Run).run t)) ∨
      ∃ j requested p text, t.job o = .ok j ∧ ¬ j.paths.isEmpty ∧
        Saves t o j.settings (Gathered.ofAttempts (t.attempts j)).entries requested p text := by
  cases hj : t.job o with
  | error e =>
    refine .inl fun stamp => ?_
    rw [perform_stopped stamp hj]
    exact ⟨rfl, fun stamp' => perform_stopped stamp' hj ▸ .refl ..⟩
  | ok j =>
    by_cases hempty : j.paths.isEmpty
    · refine .inl fun stamp => ?_
      rw [perform_empty stamp hj hempty]
      exact ⟨rfl, fun stamp' => perform_empty stamp' hj hempty ▸ .refl ..⟩
    obtain ⟨saved, h⟩ | ⟨requested, p, text, h⟩ :=
      saveResults_cases t o j.settings (Gathered.ofAttempts (t.attempts j)).entries
    · refine .inl fun stamp => ?_
      rw [perform_run stamp hj hempty (h stamp.file)]
      refine ⟨rfl, fun stamp' => ?_⟩
      rw [perform_run stamp' hj hempty (h stamp'.file)]
      exact .of_ending _ stamp stamp' _ saved (.same t) fun _ => rfl
    · exact .inr ⟨j, requested, p, text, rfl, hempty, h⟩

/-- Two runs over the same files that save their results repeat each other, whatever is in the file. -/
theorem Saves.repeats {t : FileTree} {o : Options} {s : Settings} {as : List Attempt}
    {requested : String} {p : Place} {text : Results.Stamp → String}
    (h : Saves t o s (Gathered.ofAttempts as).entries requested p text) (stamp stamp' : RunStamp)
    (saved : Except RunError (Option String)) :
    Repeats t o
      (ofSession (ending o s stamp as ⟨[], []⟩ saved), t.put p (.file (some (text stamp.file))))
      (ofSession (ending o s stamp' as ⟨[], []⟩ saved),
        t.put p (.file (some (text stamp'.file)))) := by
  refine .of_ending s stamp stamp' as saved (h.restamped stamp.file stamp'.file) fun hformat => ?_
  rw [h.text_summary hformat stamp.file stamp'.file]

end Run
end Compliance
