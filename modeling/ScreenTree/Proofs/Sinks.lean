import Mathlib.Data.List.Induction
import ScreenTree.Proofs.Clones
import ScreenTree.Proofs.Components
import ScreenTree.Proofs.Memory

/-! # Memories and their clones

A memory that is cloned is shared: each clone writes to the same files and counts the same
attempts. So what any of them shows is told by the attempts through all of them, of which the last
one that was accepted gives the text of a path, and the first one its spelling. -/

namespace ScreenTree

namespace Memory

/-- One attempt to write a text, with its result. -/
structure Attempt where
  path : String
  text : String
  result : Except FileError Unit

/-- The attempts that were accepted. -/
def accepted (attempts : List Attempt) : List Attempt :=
  attempts.filter fun a => a.result.isOk

/-- The attempt is one to write to the path, in any spelling. -/
def Attempt.isTo (a : Attempt) (path : String) : Bool :=
  Path.components a.path = Path.components path

/-- The memory shows these attempts. -/
structure Shows (m : Memory) (attempts : List Attempt) : Prop where
  text (path : String) :
    m.get? path = ((accepted attempts).reverse.find? fun a => a.isTo path).map Attempt.text
  spelled (path : String) :
    path ∈ m.paths ↔ ((accepted attempts).find? fun a => a.isTo path).map Attempt.path = some path
  ordered : m.paths.Pairwise fun p q => Path.key p < Path.key q
  counted : m.attempts = attempts.length
  taken (h : m.failure = none) : ∀ a ∈ attempts, a.result = .ok ()
  rejected (fault : FileFault) (h : m.failure = some fault) :
    m.files = [] ∧ ∀ a ∈ attempts, a.result = .error ⟨fault, some a.path⟩

/-- A memory in which nothing has been written yet. -/
def new : Option FileFault → Memory
  | none => .empty
  | some fault => .failing fault

theorem new_eq (failure : Option FileFault) : new failure = ⟨[], 0, failure⟩ := by
  cases failure <;> rfl

theorem shows_new (failure : Option FileFault) : (new failure).Shows [] := by
  rw [new_eq]
  exact {
    text := fun _ => rfl
    spelled := fun _ => by simp [paths, accepted]
    ordered := .nil
    counted := rfl
    taken := fun _ => by simp
    rejected := fun _ _ => ⟨rfl, by simp⟩ }

/-! ## Files in order -/

theorem mem_insert {path text : String} {files : List (String × String)} {p : String}
    (h : p ∈ (insert path text files).map Prod.fst) : p = path ∨ p ∈ files.map Prod.fst := by
  induction files with
  | nil => simpa [insert] using h
  | cons file files ih =>
    rw [insert] at h
    split at h
    · exact .inr h
    · split at h
      · exact List.mem_cons.1 h
      · rcases List.mem_cons.1 h with rfl | h
        · exact .inr List.mem_cons_self
        · exact (ih h).imp_right (List.mem_cons_of_mem _)

/-- Files stay in the order of their components. -/
theorem pairwise_insert (path text : String) {files : List (String × String)}
    (h : (files.map Prod.fst).Pairwise fun p q => Path.key p < Path.key q) :
    ((insert path text files).map Prod.fst).Pairwise fun p q => Path.key p < Path.key q := by
  induction files with
  | nil => exact List.pairwise_singleton _ _
  | cons file files ih =>
    obtain ⟨hfile, hfiles⟩ := List.pairwise_cons.1 h
    rw [insert]
    split
    · exact h
    · next hne =>
      split
      · next hbefore =>
        have hlt : Path.key path < Path.key file.1 := Path.before_iff.1 hbefore
        refine List.pairwise_cons.2 ⟨List.forall_mem_cons.2 ⟨hlt, fun p hp => ?_⟩, h⟩
        exact hlt.trans (hfile p hp)
      · next hnot =>
        have hlt : Path.key file.1 < Path.key path := by
          refine lt_of_le_of_ne (not_lt.1 (mt Path.before_iff.2 hnot)) ?_
          exact fun heq => hne (Path.key_eq_iff.1 heq).symm
        refine List.pairwise_cons.2 ⟨?_, ih hfiles⟩
        intro p hp
        rcases mem_insert hp with rfl | hp
        · exact hlt
        · exact hfile p hp

/-- A path is listed as it was spelled before, or else as it is written now. -/
theorem mem_insert_iff {path text : String} {files : List (String × String)}
    (h : (files.map Prod.fst).Pairwise fun p q => Path.key p < Path.key q) {p : String} :
    p ∈ (insert path text files).map Prod.fst ↔ p ∈ files.map Prod.fst ∨
      p = path ∧ ∀ q ∈ files.map Prod.fst, Path.components q ≠ Path.components path := by
  induction files with
  | nil => simp [insert]
  | cons file files ih =>
    obtain ⟨hfile, hfiles⟩ := List.pairwise_cons.1 h
    rw [insert, List.map_cons, List.forall_mem_cons]
    split
    · next hsame => simp [hsame]
    · next hne =>
      rw [and_iff_right (Ne.symm hne)]
      split
      · next hbefore =>
        -- All files come behind the path, so it is none of them.
        have hlt : Path.key path < Path.key file.1 := Path.before_iff.1 hbefore
        have hnew : ∀ q ∈ files.map Prod.fst, Path.components q ≠ Path.components path :=
          fun q hq heq => (hlt.trans (hfile q hq)).ne (Path.key_eq_iff.2 heq).symm
        rw [List.map_cons, List.mem_cons, List.map_cons, and_iff_left hnew, or_comm]
      · rw [List.map_cons, List.mem_cons, List.mem_cons, ih hfiles, or_assoc]

/-! ## Attempts -/

theorem accepted_append_ok {a : Attempt} (h : a.result = .ok ()) (attempts : List Attempt) :
    accepted (attempts ++ [a]) = accepted attempts ++ [a] := by
  rw [accepted, List.filter_append, accepted]
  simp [h, Except.isOk, Except.toBool]

theorem accepted_append_error {a : Attempt} {e : FileError} (h : a.result = .error e)
    (attempts : List Attempt) : accepted (attempts ++ [a]) = accepted attempts := by
  rw [accepted, List.filter_append, accepted]
  simp [h, Except.isOk, Except.toBool]

theorem isTo_congr {p q : String} (h : Path.components p = Path.components q) :
    (fun a : Attempt => a.isTo p) = fun a => a.isTo q := by
  funext a
  rw [Attempt.isTo, Attempt.isTo, h]

/-- No file has the components of a path exactly if no attempt to write to it was accepted. -/
theorem Shows.forall_ne_iff {m : Memory} {attempts : List Attempt} (h : m.Shows attempts)
    (path : String) : (∀ q ∈ m.paths, Path.components q ≠ Path.components path) ↔
      ((accepted attempts).find? fun a => a.isTo path) = none := by
  constructor
  · intro hne
    cases hfind : (accepted attempts).find? fun a => a.isTo path with
    | none => rfl
    | some a =>
      have hsame : Path.components a.path = Path.components path := by
        simpa [Attempt.isTo] using List.find?_some hfind
      refine absurd hsame (hne a.path ((h.spelled a.path).2 ?_))
      rw [isTo_congr hsame, hfind]
      rfl
  · intro hnone q hq hsame
    have hfind := (h.spelled q).1 hq
    rw [isTo_congr hsame, hnone] at hfind
    cases hfind

section Write

variable {m : Memory} {attempts : List Attempt} (h : m.Shows attempts) (path text : String)

include h

theorem Shows.write_rejected {fault : FileFault} (hfailure : m.failure = some fault) :
    (m.write path text).2.Shows (attempts ++ [⟨path, text, (m.write path text).1⟩]) := by
  have hresult : (m.write path text).1 = .error ⟨fault, some path⟩ := by rw [write, hfailure]
  have hmemory : (m.write path text).2 = { m with attempts := m.attempts + 1 } := by
    rw [write, hfailure]
  obtain ⟨hfiles, hall⟩ := h.rejected fault hfailure
  rw [hmemory, hresult]
  refine ⟨?_, ?_, h.ordered, ?_, ?_, ?_⟩
  · intro q
    rw [accepted_append_error rfl]
    exact h.text q
  · intro q
    rw [accepted_append_error rfl]
    exact h.spelled q
  · rw [List.length_append, ← h.counted]
    rfl
  · intro hnone
    rw [hfailure] at hnone
    cases hnone
  · intro fault' hfault
    cases hfailure.symm.trans hfault
    rw [List.forall_mem_append, List.forall_mem_singleton]
    exact ⟨hfiles, hall, rfl⟩

theorem Shows.write_taken (hfailure : m.failure = none) :
    (m.write path text).2.Shows (attempts ++ [⟨path, text, (m.write path text).1⟩]) := by
  have hresult : (m.write path text).1 = .ok () := by rw [write, hfailure]
  have hpaths : (m.write path text).2.paths = (insert path text m.files).map Prod.fst := by
    rw [write, hfailure, paths]
  have hstays := failure_write m path text
  rw [hresult]
  refine ⟨?_, ?_, ?_, ?_, ?_, ?_⟩
  · intro q
    rw [get?_write hfailure, accepted_append_ok rfl, List.reverse_append, List.reverse_singleton,
      List.singleton_append, List.find?_cons, Attempt.isTo]
    by_cases hsame : Path.components path = Path.components q
    · simp [hsame]
    · rw [if_neg (Ne.symm hsame), h.text q, decide_eq_false hsame]
  · intro q
    have hnew := h.forall_ne_iff path
    have hold := h.spelled q
    rw [hpaths, mem_insert_iff h.ordered]
    change q ∈ m.paths ∨ q = path ∧ (∀ p ∈ m.paths, _) ↔ _
    rw [hnew, hold, accepted_append_ok rfl, List.find?_append]
    cases hfind : (accepted attempts).find? fun a => a.isTo q with
    | some a =>
      rw [Option.some_or, or_iff_left]
      rintro ⟨rfl, hnone⟩
      rw [hfind] at hnone
      cases hnone
    | none =>
      rw [Option.none_or, List.find?_singleton, Attempt.isTo]
      constructor
      · rintro (hq | ⟨rfl, -⟩)
        · cases hq
        · simp
      · intro hq
        split at hq
        · have hpath : path = q := Option.some.inj hq
          exact .inr ⟨hpath.symm, hpath ▸ hfind⟩
        · cases hq
  · rw [hpaths]
    exact pairwise_insert path text h.ordered
  · rw [List.length_append, ← h.counted, write, hfailure]
    rfl
  · rw [hstays]
    intro hnone
    rw [List.forall_mem_append, List.forall_mem_singleton]
    exact ⟨h.taken hnone, rfl⟩
  · rw [hstays, hfailure]
    intro fault hfault
    cases hfault

/-- An attempt is shown in addition to those before it. -/
theorem Shows.write :
    (m.write path text).2.Shows (attempts ++ [⟨path, text, (m.write path text).1⟩]) := by
  cases hfailure : m.failure with
  | none => exact h.write_taken path text hfailure
  | some fault => exact h.write_rejected path text hfailure

end Write

/-! ## Handles -/

/-- What is stored, as a handle with this failure sees it. -/
def under (m : Memory) (failure : Option FileFault) : Memory :=
  { m with failure }

theorem under_write (m : Memory) (failure : Option FileFault) (path text : String) :
    ((m.under failure).write path text).2.under failure =
      ((m.under failure).write path text).2 := by
  have hstays : ((m.under failure).write path text).2.failure = failure :=
    failure_write (m.under failure) path text
  rw [under]
  congr 1
  exact hstays.symm

end Memory

/-- A handle on a memory: which one it shares with its clones, and why it turns down every write, if
it does. -/
structure Handle (ι : Type) where
  storage : ι
  failure : Option FileFault

/-- Handles with names in `ι`, and what is stored behind them. -/
structure Sinks (ι : Type) where
  handles : ι → Handle ι
  stored : ι → Memory

namespace Sinks

variable {ι : Type}

/-- What is seen through a handle. -/
def view (s : Sinks ι) (i : ι) : Memory :=
  (s.stored (s.handles i).storage).under (s.handles i).failure

/-- Every handle has a new memory of its own. -/
def new (failure : ι → Option FileFault) : Sinks ι :=
  ⟨fun i => ⟨i, failure i⟩, fun i => .new (failure i)⟩

variable [DecidableEq ι]

/-- A text is written through a handle, or a handle becomes a clone of another one. -/
def perform (s : Sinks ι) : Event ι (String × String) → Sinks ι
  | .act on (path, text) =>
    ⟨s.handles,
      Function.update s.stored (s.handles on).storage ((s.view on).write path text).2⟩
  | .clone source target =>
    ⟨Function.update s.handles target (s.handles source), s.stored⟩

def after (s : Sinks ι) (events : List (Event ι (String × String))) : Sinks ι :=
  events.foldl perform s

/-- The attempt that an event makes on a memory. -/
def attempt? (s : Sinks ι) (storage : ι) : Event ι (String × String) → Option Memory.Attempt
  | .act on (path, text) =>
    if (s.handles on).storage = storage then some ⟨path, text, ((s.view on).write path text).1⟩
    else none
  | .clone _ _ => none

/-- The attempts on a memory, through whatever handle. -/
def attempts (storage : ι) : Sinks ι → List (Event ι (String × String)) → List Memory.Attempt
  | _, [] => []
  | s, event :: events =>
    (s.attempt? storage event).toList ++ attempts storage (s.perform event) events

theorem attempts_append (storage : ι) (s : Sinks ι) (events : List (Event ι (String × String)))
    (event : Event ι (String × String)) :
    attempts storage s (events ++ [event]) =
      attempts storage s events ++ ((s.after events).attempt? storage event).toList := by
  induction events generalizing s with
  | nil => simp [attempts, after]
  | cons first events ih =>
    rw [List.cons_append, attempts, attempts, ih, List.append_assoc]
    rfl

theorem after_append (s : Sinks ι) (events : List (Event ι (String × String)))
    (event : Event ι (String × String)) :
    s.after (events ++ [event]) = (s.after events).perform event := by
  rw [after, List.foldl_append]
  rfl

/-- A handle shares the memory of the handle that it stems from, and fails as that one does. -/
theorem handles_after (failure : ι → Option FileFault) (events : List (Event ι (String × String)))
    (i : ι) : ((new failure).after events).handles i =
      ⟨Event.origin i events, failure (Event.origin i events)⟩ := by
  have hhandles (s : Sinks ι) : (s.after events).handles =
      Event.after (fun handle _ => handle) s.handles events := by
    induction events generalizing s with
    | nil => rfl
    | cons event events ih =>
      have hstep : (s.perform event).handles = Event.perform (fun h _ => h) s.handles event := by
        cases event with
        | act on write => exact (Function.update_eq_self on s.handles).symm
        | clone source target => rfl
      rw [after, List.foldl_cons, Event.after, List.foldl_cons, ← hstep]
      exact ih (s.perform event)
  have hsame (history : List (String × String)) (handle : Handle ι) :
      history.foldl (fun handle _ => handle) handle = handle := by
    induction history with
    | nil => rfl
    | cons write history ih => exact ih
  rw [hhandles, Event.after_eq, hsame]
  rfl

theorem view_after (failure : ι → Option FileFault) (events : List (Event ι (String × String)))
    (i : ι) : ((new failure).after events).view i =
      (((new failure).after events).stored (Event.origin i events)).under
        (failure (Event.origin i events)) := by
  rw [view, handles_after]

/-- What is stored shows the attempts on it. An attempt on another memory leaves it alone, and so
does a clone. -/
theorem shows_after (failure : ι → Option FileFault) (events : List (Event ι (String × String)))
    (storage : ι) :
    ((((new failure).after events).stored storage).under (failure storage)).Shows
      (attempts storage (new failure) events) := by
  induction events using List.reverseRecOn with
  | nil =>
    have hsame : (Memory.new (failure storage)).under (failure storage) =
        Memory.new (failure storage) := by rw [Memory.new_eq, Memory.under]
    exact hsame ▸ Memory.shows_new (failure storage)
  | append_singleton events event ih =>
    rw [attempts_append, after_append]
    cases event with
    | clone source target => simpa only [attempt?, perform, Option.toList_none, List.append_nil]
    | act on write =>
      obtain ⟨path, text⟩ := write
      rw [attempt?, perform, handles_after, view_after]
      dsimp only
      by_cases hon : Event.origin on events = storage
      · rw [if_pos hon, hon, Function.update_self, Option.toList_some, Memory.under_write]
        exact ih.write path text
      · rw [if_neg hon, Function.update_of_ne (Ne.symm hon), Option.toList_none, List.append_nil]
        exact ih

/-- Every handle shows the attempts through all handles that stem from the same one: under a path
in any spelling, the text that was written last; of every path, the spelling that came first; all in
the order of components, without repetition. It counts them all. Handles that stem from the same one
show the same, and with a failure there is nothing but the count. -/
theorem last_write_wins (failure : ι → Option FileFault)
    (events : List (Event ι (String × String))) (i : ι) :
    (((new failure).after events).view i).Shows
      (attempts (Event.origin i events) (new failure) events) ∧
    (((new failure).after events).view i).failure = failure (Event.origin i events) ∧
    (∀ j, Event.origin j events = Event.origin i events →
      ((new failure).after events).view j = ((new failure).after events).view i) ∧
    ∀ p q, Path.components p = Path.components q ↔ Path.Respelled p q := by
  refine ⟨?_, ?_, ?_, fun _ _ => Path.components_eq_iff⟩
  · rw [view_after]
    exact shows_after failure events _
  · rw [view_after]
    rfl
  · intro j h
    rw [view_after, view_after, h]

/-- Two handles share a memory, in which three paths are written in four spellings. A third one
stores nothing. -/
theorem last_write_wins_through_clone :
    let failure : Nat → Option FileFault := fun i => if i = 2 then some .storageFull else none
    let events : List (Event Nat (String × String)) :=
      [.act 0 ("out//a", "x"), .clone 0 1, .act 1 ("./b", "y"), .act 2 ("b", "z"),
        .act 1 ("b", "u"), .act 0 ("out/./a/", "v")]
    let s := (new failure).after events
    Event.origin 1 events = Event.origin 0 events ∧ s.view 1 = s.view 0 ∧
      (s.view 0).paths = ["./b", "b", "out//a"] ∧ (s.view 0).get? "out/a" = some "v" ∧
      (s.view 0).attempts = 4 ∧ (s.view 2).files = [] ∧ (s.view 2).attempts = 1 := by
  intro failure events s
  have horigin : Event.origin 1 events = Event.origin 0 events := by decide
  obtain ⟨hshown, -, hshared, -⟩ := last_write_wins failure events 0
  obtain ⟨hrejected, hfailure, -, -⟩ := last_write_wins failure events 2
  refine ⟨horigin, hshared 1 horigin, by decide, ?_, hshown.counted, ?_, hrejected.counted⟩
  · exact (hshown.text "out/a").trans (by decide)
  · exact (hrejected.rejected .storageFull hfailure).1

end Sinks
end ScreenTree
