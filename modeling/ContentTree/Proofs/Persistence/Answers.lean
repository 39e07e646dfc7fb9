import ContentTree.Proofs.Persistence.Parsing
import ContentTree.Proofs.Persistence.Serving

/-!
# What a backend answers

What an open workspace answers depends on the files of its records alone (`Serving.answers_eq`).
-/

namespace ContentTree

variable {σ α : Type}

/-- The answers of a backend in one state, for every identity. -/
structure Answers where
  load : ItemId → Except Error ItemState
  contains : ItemId → Except Error Bool
  loadReferences : NodeId → Except Error NodeReferences
  containsReferences : NodeId → Except Error Bool

/-- The value that a question gets, or the error. -/
def answer (question : EStateM Error σ α) (s : σ) : Except Error α :=
  match question s with
  | .ok a _ => .ok a
  | .error e _ => .error e

/-- All that can be asked of a backend. -/
def Backend.answers (b : Backend σ) (s : σ) : Answers where
  load id := answer (b.load id) s
  contains id := answer (b.contains id) s
  loadReferences target := answer (b.loadReferences target) s
  containsReferences target := answer (b.containsReferences target) s

/-- What a sequence of two computations answers. -/
theorem answer_bind {β : Type} (x : EStateM Error σ α) (f : α → EStateM Error σ β) (s : σ) :
    answer (x >>= f) s = match x s with
      | .ok a s' => answer (f a) s'
      | .error e _ => .error e := by
  cases hx : x s with
  | ok a s' =>
    rw [answer, bind_of_ok hx]
    rfl
  | error e s' => rw [answer, bind_of_error hx]

namespace FileStore

/-- What is answered for a record by what is read at its path, where a missing one is a failure. -/
def answerRead [Portable α] (magic : Bytes) (path : Path) (missing : Error) :
    Except IoCause Bytes → Except Error α
  | .ok contents => Record.read magic path.display contents
  | .error .notFound => .error missing
  | .error cause => .error (.io cause)

/-- Loading a record answers from what reading its file gives. -/
theorem answer_loadRecord [Portable α] (magic : Bytes) {path : Path} {next : Option α → Action α}
    {missing : Error} (hsome : ∀ a, next (some a) = pure a) (hnone : next none = throw missing)
    {s : Hosted FileStore} : answer (loadRecord magic path >>= next) s =
      answerRead magic path missing (s.device.disk.read path) := by
  rw [answer_bind]
  cases hread : s.device.disk.read path with
  | ok contents =>
    rw [loadRecord_of_file hread, answerRead]
    cases (Record.read magic path.display contents : Except Error α) with
    | ok a => exact congrArg (answer · s) (hsome a)
    | error e => rfl
  | error cause =>
    rw [loadRecord, get_bind, hread]
    cases cause with
    | notFound => exact congrArg (answer · s) hnone
    | unexpectedEnd | other message => rfl

/-- The answers that files of records give, by path. -/
def told (folder : Path) (files : Path → Option Bytes) : Answers where
  load id :=
    match files (itemPath folder id) with
    | some contents => Record.read Record.itemMagic (itemPath folder id).display contents
    | none => .error (.noSuchItem id)
  contains id := .ok (files (itemPath folder id)).isSome
  loadReferences target :=
    match files (referencesPath folder target) with
    | some contents => Record.read Record.referencesMagic (referencesPath folder target).display contents
    | none => .error (.noSuchReferences ⟨target⟩)
  containsReferences target := .ok (files (referencesPath folder target)).isSome

/-- Only the files of records matter. -/
theorem told_congr {folder : Path} {files files' : Path → Option Bytes}
    (h : ∀ p, IsRecord folder p → files p = files' p) : told folder files = told folder files' := by
  have hitem := fun id => h _ (isRecord_itemPath folder id)
  have hrefs := fun target => h _ (isRecord_referencesPath folder target)
  unfold told
  simp only [hitem, hrefs]

variable {w : Site} {s : Hosted FileStore} {files : Path → Option Bytes} {log : Bytes}
  {writer : Option Writer}

namespace Serving

/-- What an open workspace stands for is what its disk holds. -/
theorem filesIn (h : Serving w files log writer s) :
    Serving w (FileStore.filesIn s.device.disk) log writer s :=
  { h with records_eq := fun _ hp => (h.inOrder.filesIn_eq hp).symm }

/-- A record is read from the file that stands under its path. -/
theorem read_record (h : Serving w files log writer s) {path : Path} (hp : IsRecord w.folder path) :
    s.device.disk.read path = match files path with
      | some bytes => .ok bytes
      | none => .error .notFound := by
  rw [← h.records_eq path hp]
  exact h.inOrder.read_record hp

/-- A record is there if a file stands under its path. -/
theorem has_record (h : Serving w files log writer s) {path : Path} (hp : IsRecord w.folder path) :
    s.device.disk.has path = (files path).isSome := by
  rw [← h.records_eq path hp]
  exact h.inOrder.has_record hp

/-- What is answered for a record, where a missing one is a failure. -/
theorem answer_loadRecord [Portable α] (h : Serving w files log writer s) (magic : Bytes)
    {path : Path} (hp : IsRecord w.folder path) {next : Option α → Action α} {missing : Error}
    (hsome : ∀ a, next (some a) = pure a) (hnone : next none = throw missing) :
    answer (loadRecord magic path >>= next) s =
      match files path with
      | some contents => Record.read magic path.display contents
      | none => .error missing := by
  rw [FileStore.answer_loadRecord magic hsome hnone, h.read_record hp]
  cases files path <;> rfl

/-- An open workspace answers what the files of its records give. -/
theorem answers_eq (h : Serving w files log writer s) :
    FileStore.backend.answers s = told w.folder files := by
  have hload : ∀ id, answer (FileStore.backend.load id) s = (told w.folder files).load id := by
    intro id
    show answer (loadRecord Record.itemMagic (itemPath s.value.folder id) >>= _) s = _
    rw [h.folder_eq]
    exact h.answer_loadRecord Record.itemMagic (isRecord_itemPath w.folder id) (fun _ => rfl) rfl
  have hrefs : ∀ target, answer (FileStore.backend.loadReferences target) s =
      (told w.folder files).loadReferences target := by
    intro target
    show answer (loadRecord Record.referencesMagic (referencesPath s.value.folder target) >>= _) s = _
    rw [h.folder_eq]
    exact h.answer_loadRecord Record.referencesMagic (isRecord_referencesPath w.folder target)
      (fun _ => rfl) rfl
  have hcontains : ∀ id, answer (FileStore.backend.contains id) s =
      (told w.folder files).contains id := by
    intro id
    show Except.ok (s.device.disk.has (itemPath s.value.folder id)) = _
    rw [h.folder_eq, h.has_record (isRecord_itemPath w.folder id)]
    rfl
  have hhas : ∀ target, answer (FileStore.backend.containsReferences target) s =
      (told w.folder files).containsReferences target := by
    intro target
    show Except.ok (s.device.disk.has (referencesPath s.value.folder target)) = _
    rw [h.folder_eq, h.has_record (isRecord_referencesPath w.folder target)]
    rfl
  rw [Backend.answers, funext hload, funext hcontains, funext hrefs, funext hhas]

end Serving

end FileStore

end ContentTree
