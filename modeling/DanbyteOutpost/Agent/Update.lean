import DanbyteOutpost.Machine.Run
import Mathlib.Logic.Function.Basic

/-!
# Replacing the binary

`self_update` as a machine over the files of the host: the download, and then one system call after
the other. Any of them can fail, and the process can be killed between any two of them and started
again from what is on disk. `binary_whole` says that what is on disk under the name of the binary is
the binary the host started with, or the whole of a download, executable.

The machine is about processes that die, not about a disk that loses power.

## The proof

`Whole` is the invariant: the file under the name of the binary is what was installed last, or the
old one, and the file next to it is whatever the calls since the last start have made of it
(`Beside`). The only call that touches the binary is the `rename`, which comes when the file next
to it is complete and executable (`Whole.install`). A kill changes no file, and a restart forgets
at which call it came.
-/

namespace Outpost

/-- A file: its bytes, and its mode. -/
structure File where
  /-- What is in it. -/
  data : List UInt8
  /-- Its permissions. -/
  mode : ℕ
  deriving DecidableEq

/-- What the process is about to do. -/
inductive Stage
  /-- Nothing; the loop of the agent runs. -/
  | running
  /-- The download has been asked for. -/
  | downloading
  /-- `open(tmp, "wb")`. -/
  | opening (data : List UInt8)
  /-- `f.write(data)`, with what is left to write. -/
  | writing (data rest : List UInt8)
  /-- `os.chmod(tmp, 0o755)`. -/
  | settingMode (data : List UInt8)
  /-- `os.replace(tmp, path)`. -/
  | replacing (data : List UInt8)
  /-- There is no process. -/
  | exited
  deriving DecidableEq

/-- The files of a host, and its agent. -/
structure Host where
  /-- The file under each name, where there is one. -/
  files : String → Option File
  /-- What the agent of the host is about to do. -/
  stage : Stage

/-- `f"{path}.new"` -/
def tmpOf (path : String) : String := path ++ ".new"

/-- `0o755` -/
def executable : ℕ := 0o755

/-- What can happen next; an `ok` tells whether a call succeeds, and otherwise the exception goes up
to the loop of the agent. -/
inductive DiskEvent
  /-- `self_update` is called. -/
  | start
  /-- The answer to the download, `none` when it raised. -/
  | downloaded (data : Option (List UInt8))
  /-- `mode` is that of a file which is new. -/
  | opened (ok : Bool) (mode : ℕ)
  /-- The bytes the system takes, `none` when it fails. -/
  | wrote (n : Option ℕ)
  /-- `os.chmod` comes back. -/
  | modeSet (ok : Bool)
  /-- `os.replace` comes back. -/
  | replaced (ok : Bool)
  /-- The process is killed, wherever it is. -/
  | killed
  /-- `Restart=always`. -/
  | relaunched

/-- One step. -/
def Host.step (path : String) (h : Host) : DiskEvent → Option Host
  | .start => if h.stage = .running then some { h with stage := .downloading } else none
  | .downloaded data =>
    if h.stage = .downloading then
      match data with
      | none => some { h with stage := .running }
      | some data => some { h with stage := .opening data }
    else none
  | .opened ok mode =>
    match h.stage with
    | .opening data =>
      if ok then
        -- an old file keeps its mode
        let mode := ((h.files (tmpOf path)).map File.mode).getD mode
        some {
          files := Function.update h.files (tmpOf path) (some ⟨[], mode⟩)
          stage := .writing data data }
      else some { h with stage := .running }
    | _ => none
  | .wrote n =>
    match h.stage, n with
    | .writing _ _, none => some { h with stage := .running }
    | .writing data rest, some n =>
      let files := Function.update h.files (tmpOf path)
        ((h.files (tmpOf path)).map fun file ↦ { file with data := file.data ++ rest.take n })
      some {
        files := files
        stage := if rest.drop n = [] then .settingMode data else .writing data (rest.drop n) }
    | _, _ => none
  | .modeSet ok =>
    match h.stage with
    | .settingMode data =>
      if ok then
        some {
          files := Function.update h.files (tmpOf path)
            ((h.files (tmpOf path)).map fun file ↦ { file with mode := executable })
          stage := .replacing data }
      else some { h with stage := .running }
    | _ => none
  | .replaced ok =>
    match h.stage with
    | .replacing _ =>
      if ok then
        some {
          files := Function.update (Function.update h.files path (h.files (tmpOf path)))
            (tmpOf path) none
          stage := .exited }
      else some { h with stage := .running }
    | _ => none
  | .killed => some { h with stage := .exited }
  | .relaunched => if h.stage = .exited then some { h with stage := .running } else none

/-- The host and the updates of its agent. -/
def updater (path : String) : Machine Host DiskEvent := ⟨Host.step path⟩

/-! ### What is on disk -/

/-- The downloads that were completed, and the one that was installed last. -/
structure Installs where
  /-- All that was ever downloaded as a whole. -/
  downloads : List (List UInt8)
  /-- What `os.replace` put in place last; `none` while it has not. -/
  installed : Option (List UInt8)

/-- What a step adds to that: a download that is whole, and a file that is put in place. -/
def installs (h : Host) (e : DiskEvent) (i : Installs) : Installs :=
  match e, h.stage with
  | .downloaded (some data), _ => { i with downloads := i.downloads ++ [data] }
  | .replaced true, .replacing data => { i with installed := some data }
  | _, _ => i

/-- The file next to the binary, at each stage. -/
def Beside (file : Option File) (downloads : List (List UInt8)) : Stage → Prop
  | .opening data => data ∈ downloads
  | .writing data rest => data ∈ downloads ∧ ∃ written mode, file = some ⟨written, mode⟩ ∧
      written ++ rest = data
  | .settingMode data => data ∈ downloads ∧ ∃ mode, file = some ⟨data, mode⟩
  | .replacing data => data ∈ downloads ∧ file = some ⟨data, executable⟩
  | _ => True

/-- The binary is the one installed last, and nothing else is touched. -/
structure Whole (path : String) (files : String → Option File) (old : File) (h : Host)
    (i : Installs) : Prop where
  /-- The file under the name of the binary is whole, whatever the stage. -/
  binary : h.files path = some ((i.installed.map fun data ↦ ⟨data, executable⟩).getD old)
  /-- What was installed was a whole download. -/
  downloaded : ∀ data ∈ i.installed, data ∈ i.downloads
  /-- The file beside it is what the stage makes it. -/
  beside : Beside (h.files (tmpOf path)) i.downloads h.stage
  /-- No other file is touched. -/
  others : ∀ p, p ≠ path → p ≠ tmpOf path → h.files p = files p

/-- The file that is written is not the binary. -/
theorem tmpOf_ne (path : String) : tmpOf path ≠ path := by
  intro h
  have hlen := congrArg String.length h
  rw [tmpOf, String.length_append] at hlen
  have hnew : ".new".length = 4 := by decide
  omega

variable {path : String} {files : String → Option File} {old : File} {h h' : Host} {i : Installs}

/-- A step that leaves the disk alone, and what was installed. -/
theorem Whole.keep (hw : Whole path files old h i) {stage : Stage} {i' : Installs}
    (hinstalled : i'.installed = i.installed) (hdownloads : i.downloads ⊆ i'.downloads)
    (hbeside : Beside (h.files (tmpOf path)) i'.downloads stage) :
    Whole path files old { h with stage := stage } i' where
  binary := by rw [hinstalled, hw.binary]
  downloaded data hdata := hdownloads (hw.downloaded data (hinstalled ▸ hdata))
  beside := hbeside
  others := hw.others

/-- A step that changes the file next to the binary. -/
theorem Whole.write (hw : Whole path files old h i) {stage : Stage} {file : Option File}
    (hbeside : Beside file i.downloads stage) :
    Whole path files old ⟨Function.update h.files (tmpOf path) file, stage⟩ i where
  binary := by
    dsimp only
    rw [Function.update_of_ne (tmpOf_ne path).symm, hw.binary]
  downloaded := hw.downloaded
  beside := by
    dsimp only
    rw [Function.update_self]
    exact hbeside
  others p hp hp' := by
    dsimp only
    rw [Function.update_of_ne hp', hw.others p hp hp']

/-- The step that changes the binary. -/
theorem Whole.install (hw : Whole path files old h i) {data : List UInt8}
    (hstage : h.stage = .replacing data) :
    Whole path files old
      ⟨Function.update (Function.update h.files path (h.files (tmpOf path))) (tmpOf path) none,
        .exited⟩ { i with installed := some data } := by
  have hbeside := hw.beside
  rw [hstage] at hbeside
  constructor
  · dsimp only
    rw [Function.update_of_ne (tmpOf_ne path).symm, Function.update_self, hbeside.2]
    rfl
  · intro data' hdata
    cases hdata
    exact hbeside.1
  · trivial
  · intro p hp hp'
    dsimp only
    rw [Function.update_of_ne hp', Function.update_of_ne hp, hw.others p hp hp']

/-- Only a download and a replacement count for what is installed. -/
theorem installs_of_ne {e : DiskEvent} (hdownloaded : ∀ data, e ≠ .downloaded (some data))
    (hreplaced : e ≠ .replaced true) : installs h e i = i := by
  unfold installs
  split
  · exact absurd rfl (hdownloaded _)
  · exact absurd rfl hreplaced
  · rfl

/-- The step lemma: the binary is touched by the one `os.replace` only, whose source is written to
its end and made executable by then. -/
theorem whole_step {e : DiskEvent} (hw : Whole path files old h i)
    (hstep : h.step path e = some h') : Whole path files old h' (installs h e i) := by
  -- a step that neither downloads nor installs only moves to another stage
  have hsame : ∀ {stage}, e ≠ .replaced true → (∀ data, e ≠ .downloaded (some data)) →
      Beside (h.files (tmpOf path)) i.downloads stage →
      Whole path files old { h with stage := stage } (installs h e i) := by
    intro stage hreplaced hdownloaded hbeside
    rw [installs_of_ne hdownloaded hreplaced]
    exact hw.keep rfl (List.Subset.refl _) hbeside
  have hbeside := hw.beside
  unfold Host.step at hstep
  split at hstep
  case h_1 =>
    split at hstep <;> cases hstep
    exact hsame (by simp) (by simp) trivial
  case h_2 data =>
    split at hstep
    case isFalse => cases hstep
    case isTrue hstage =>
      rcases data with - | data <;> cases hstep
      · exact hsame (by simp) (by simp) trivial
      · exact hw.keep rfl (List.subset_append_left _ _)
          (List.mem_append_right _ (List.mem_singleton_self _))
  case h_3 ok mode =>
    split at hstep
    case h_2 => cases hstep
    case h_1 data hstage =>
      rw [hstage] at hbeside
      rcases ok <;> cases hstep
      · exact hsame (by simp) (by simp) trivial
      · exact hw.write ⟨hbeside, [], _, rfl, rfl⟩
  -- a write takes the next octets off what is still to be written
  case h_4 n =>
    split at hstep
    case h_1 => cases hstep; exact hsame (by simp) (by simp) trivial
    case h_3 => cases hstep
    case h_2 data rest n hstage =>
      rw [hstage] at hbeside
      obtain ⟨hmem, written, mode, hfile, hdata⟩ := hbeside
      cases hstep
      refine hw.write ?_
      rw [hfile, Option.map_some]
      have htake : written ++ rest.take n ++ rest.drop n = data := by
        rw [List.append_assoc, List.take_append_drop, hdata]
      split
      case isTrue hnil =>
        rw [hnil, List.append_nil] at htake
        exact ⟨hmem, mode, by rw [← htake]⟩
      case isFalse => exact ⟨hmem, _, mode, rfl, htake⟩
  case h_5 ok =>
    split at hstep
    case h_2 => cases hstep
    case h_1 data hstage =>
      rw [hstage] at hbeside
      obtain ⟨hmem, mode, hfile⟩ := hbeside
      rcases ok <;> cases hstep
      · exact hsame (by simp) (by simp) trivial
      · refine hw.write ⟨hmem, ?_⟩
        rw [hfile]
        rfl
  -- the rename, the one call that touches the binary
  case h_6 ok =>
    split at hstep
    case h_2 => cases hstep
    case h_1 data hstage =>
      rcases ok <;> cases hstep
      · exact hsame (by simp) (by simp) trivial
      · have hinstalls : installs h (.replaced true) i = { i with installed := some data } := by
          simp only [installs, hstage]
        rw [hinstalls]
        exact hw.install hstage
  -- being killed changes no file, and neither does the start behind it
  case h_7 =>
    cases hstep
    exact hsame (by simp) (by simp) trivial
  case h_8 =>
    split at hstep <;> cases hstep
    exact hsame (by simp) (by simp) trivial

/-- **Whatever happens to an update, the binary is whole.** In every run, however often the agent
tries, fails, is killed and is started again, the file under the name of the binary is the download
that was installed last, all of it and executable, or the binary the host began with while none was.
No file is touched but this one and the one next to it.

Only `os.replace` writes under the name of the binary, and it puts there a file that was written to
its end. -/
theorem binary_whole {path : String} {old : File} {h₀ h : Host} {es : List DiskEvent}
    (hold : h₀.files path = some old) (hrunning : h₀.stage = .running)
    (hrun : (updater path).exec h₀ es = some h) :
    let i := (updater path).observe installs h₀ es ⟨[], none⟩
    h.files path = some ((i.installed.map fun data ↦ ⟨data, executable⟩).getD old) ∧
      (∀ data ∈ i.installed, data ∈ i.downloads) ∧
      ∀ p, p ≠ path → p ≠ tmpOf path → h.files p = h₀.files p := by
  have hw := (updater path).exec_invariant (P := fun _ _ ↦ True) (f := installs)
    (I := Whole path h₀.files old) (fun _ _ _ _ _ hw hstep ↦ whole_step hw hstep)
    (h := ⟨[], none⟩) (Machine.meets_true _ es)
    ⟨hold, fun _ hdata ↦ (by cases hdata), (by rw [hrunning]; trivial), fun _ _ _ ↦ rfl⟩ hrun
  exact ⟨hw.binary, hw.downloaded, hw.others⟩

/-- A host whose agent runs a binary of one byte. -/
def oneByte : Host where
  files := Function.update (fun _ ↦ none) "agent" (some ⟨[1], executable⟩)
  stage := .running

/-- An update that is killed in the middle of its write, and another one that is not. -/
def secondTry : List DiskEvent :=
  [.start, .downloaded (some [2, 3]), .opened true 0o644, .wrote (some 1), .killed, .relaunched,
    .start, .downloaded (some [4, 5]), .opened true 0o644, .wrote (some 1), .wrote (some 1),
    .modeSet true, .replaced true]

/-- The first try is killed while it writes; the second installs its own download whole. -/
theorem binary_whole_secondTry : ∃ h, (updater "agent").exec oneByte secondTry = some h ∧
    h.files "agent" = some ⟨[4, 5], executable⟩ := by
  have hsome : ((updater "agent").exec oneByte secondTry).isSome = true := by decide +kernel
  obtain ⟨h, hrun⟩ := Option.isSome_iff_exists.1 hsome
  have hold : oneByte.files "agent" = some ⟨[1], executable⟩ := by decide +kernel
  refine ⟨h, hrun, (binary_whole hold rfl hrun).1.trans ?_⟩
  decide +kernel

end Outpost
