import Mathlib.Data.List.Induction
import Phlo.Library.FileTree

/-!
# File operations that may be refused

A program works on a directory tree through calls to the operating system.  `faults n` is what becomes of
call number `n`: the system answers it as the tree allows, refuses it, or breaks it off in the middle of a
write.  The first call that fails ends the procedure; what the calls before it have done stays.

The operations are those on locations that are reached through no link.

* `node_makeDirectory`, `node_removeFile`, … — what an operation that succeeds finds, and what it leaves;
* `Yields` and its rules — a procedure that starts in a state with `P` ends in one with `Q`, or fails in
  one with `E`;
* `FileTree.Closed` — everything lies in a directory, and stays so.
-/

namespace Phlo.Library

/-- A regular file: what it holds, and its permissions. -/
structure Stored (β : Type) where
  content : β
  mode : ℕ
  deriving DecidableEq

variable {β : Type}

/-! ### Operations on a tree -/

namespace FileTree

variable {t t' : FileTree (Stored β)} {p q r : Location}

/-- `path.exists()` -/
def present (t : FileTree (Stored β)) (p : Location) : Bool :=
  match t.node p with
  | none => false
  | some (.link none) => false
  | some (.link (some target)) => (t.node target).isSome
  | some _ => true

/-- A location has something other than a directory above it. -/
def isBlocked (t : FileTree (Stored β)) (p : Location) : Bool :=
  p.inits.any fun q => q ≠ p ∧ (t.node q).isSome ∧ t.isDirectory q = false

/-- `path.mkdir()` -/
def makeDirectory (t : FileTree (Stored β)) (p : Location) : Option (FileTree (Stored β)) :=
  match t.node p with
  | none => if t.isDirectory p.dropLast then some (t.put p .directory) else none
  | some _ => none

/-- `path.rmdir()` -/
def removeDirectory (t : FileTree (Stored β)) (p : Location) : Option (FileTree (Stored β)) :=
  if p ≠ [] ∧ t.isDirectory p = true ∧ t.hasEntries p = false then some (t.remove p) else none

/-- `path.unlink()` -/
def removeFile (t : FileTree (Stored β)) (p : Location) : Option (FileTree (Stored β)) :=
  match t.node p with
  | none | some .directory => none
  | some _ => some (t.remove p)

/-- `path.unlink(missing_ok=True)` -/
def removeIfPresent (t : FileTree (Stored β)) (p : Location) : Option (FileTree (Stored β)) :=
  match t.node p with
  | none => if t.isBlocked p then none else some t
  | some .directory => none
  | some _ => some (t.remove p)

/-- `source.rename(target)` of something other than a directory. -/
def renameFile (t : FileTree (Stored β)) (source target : Location) : Option (FileTree (Stored β)) :=
  match t.node source, t.node target with
  | none, _ | some .directory, _ | some _, some .directory => none
  | some n, _ =>
    if t.isDirectory target.dropLast then some ((t.remove source).put target n) else none

/-- Writing from the start; a file that is not there is created with these permissions. -/
def writeFile (mode : ℕ) (t : FileTree (Stored β)) (p : Location) (content : β) : Option (FileTree (Stored β)) :=
  match t.node p with
  | some (.file stored) => some (t.put p (.file { stored with content }))
  | none => if t.isDirectory p.dropLast then some (t.put p (.file ⟨content, mode⟩)) else none
  | some _ => none

/-- `path.chmod(mode)` of a regular file. -/
def changeMode (t : FileTree (Stored β)) (p : Location) (mode : ℕ) : Option (FileTree (Stored β)) :=
  match t.node p with
  | some (.file stored) => some (t.put p (.file { stored with mode }))
  | _ => none

def contentAt (t : FileTree (Stored β)) (p : Location) : Option β := (t.readFile p).map Stored.content

theorem isDirectory_iff : t.isDirectory p = true ↔ t.node p = some .directory := by
  unfold isDirectory
  split
  · next h => exact ⟨fun _ => h, fun _ => rfl⟩
  · next h => exact ⟨fun h' => (by cases h'), fun h' => absurd h' h⟩

theorem readFile_eq_some_iff {s : Stored β} : t.readFile p = some s ↔ t.node p = some (.file s) := by
  unfold readFile
  split
  · next content h =>
    rw [h, Option.some.injEq, Option.some.injEq, Node.file.injEq]
  · next h =>
    constructor
    · intro h'
      cases h'
    · intro h'
      exact absurd h' (h s)

theorem readFile_congr (h : t.node p = t'.node p) : t.readFile p = t'.readFile p := by
  rw [readFile, readFile, h]

variable {content : β}

theorem contentAt_eq_some_iff : t.contentAt p = some content ↔ ∃ mode, t.node p = some (.file ⟨content, mode⟩) := by
  rw [contentAt, Option.map_eq_some_iff]
  constructor
  · rintro ⟨s, hs, rfl⟩
    exact ⟨s.mode, readFile_eq_some_iff.1 hs⟩
  · rintro ⟨mode, h⟩
    exact ⟨_, readFile_eq_some_iff.2 h, rfl⟩

theorem ne_root_of_node_ne (h : t.node p ≠ some .directory) : p ≠ [] := by
  rintro rfl
  exact h rfl

theorem node_makeDirectory (h : t.makeDirectory p = some t') : t.node p = none ∧ t.node p.dropLast = some .directory ∧
      ∀ q, t'.node q = if q = p then some .directory else t.node q := by
  unfold makeDirectory at h
  split at h
  · next hnone =>
    split at h
    · next hparent =>
      obtain rfl := Option.some.inj h
      exact ⟨hnone, isDirectory_iff.1 hparent,
        fun q => node_put (ne_root_of_node_ne (t := t) fun h' => by rw [hnone] at h'; cases h')⟩
    · cases h
  · cases h

theorem node_removeDirectory (h : t.removeDirectory p = some t') :
    p ≠ [] ∧ t.node p = some .directory ∧ t.hasEntries p = false ∧
      ∀ q, t'.node q = if q = p then none else t.node q := by
  unfold removeDirectory at h
  split at h
  · next hp =>
    obtain rfl := Option.some.inj h
    exact ⟨hp.1, isDirectory_iff.1 hp.2.1, hp.2.2, fun q => node_remove hp.1⟩
  · cases h

theorem node_removeFile (h : t.removeFile p = some t') :
    t.node p ≠ none ∧ t.node p ≠ some .directory ∧ ∀ q, t'.node q = if q = p then none else t.node q := by
  unfold removeFile at h
  split at h
  · cases h
  · cases h
  · next n hdir hn =>
    obtain rfl := Option.some.inj h
    have hne : t.node p ≠ some .directory := by
      rw [hn]
      intro heq
      exact hdir (Option.some.inj heq)
    refine ⟨?_, hne, fun q => node_remove (ne_root_of_node_ne hne)⟩
    rw [hn]
    exact Option.some_ne_none n

theorem node_removeIfPresent (h : t.removeIfPresent p = some t') :
    t.node p ≠ some .directory ∧ ∀ q, t'.node q = if q = p then none else t.node q := by
  unfold removeIfPresent at h
  split at h
  · next hnone =>
    split at h
    · cases h
    · obtain rfl := Option.some.inj h
      refine ⟨?_, fun q => ?_⟩
      · rw [hnone]
        exact nofun
      · split
        · next heq => rw [heq, hnone]
        · rfl
  · cases h
  · next n hdir hn =>
    obtain rfl := Option.some.inj h
    have hne : t.node p ≠ some .directory := by
      rw [hn]
      intro heq
      exact hdir (Option.some.inj heq)
    exact ⟨hne, fun q => node_remove (ne_root_of_node_ne hne)⟩

theorem node_renameFile (h : t.renameFile p q = some t') :
    ∃ n, t.node p = some n ∧ n ≠ .directory ∧ t.node q ≠ some .directory ∧ t.node q.dropLast = some .directory ∧
      ∀ r, t'.node r = if r = q then some n else if r = p then none else t.node r := by
  unfold renameFile at h
  split at h
  · cases h
  · cases h
  · cases h
  · next n hdir hn hq =>
    split at h
    · next hparent =>
      obtain rfl := Option.some.inj h
      have hp : t.node p ≠ some .directory := by
        rw [hn]
        intro heq
        exact hdir (Option.some.inj heq)
      have hq' : t.node q ≠ some .directory := hq
      refine ⟨n, hn, hdir, hq', isDirectory_iff.1 hparent, fun r => ?_⟩
      rw [node_put (ne_root_of_node_ne hq'), node_remove (ne_root_of_node_ne hp)]
    · cases h

theorem node_writeFile {mode : ℕ} (h : t.writeFile mode p content = some t') :
    ((∃ s, t.node p = some (.file s)) ∨ t.node p = none ∧ t.node p.dropLast = some .directory) ∧
      ∀ q, t'.node q = if q = p then some (.file ⟨content, ((t.readFile p).map Stored.mode).getD mode⟩)
        else t.node q := by
  unfold writeFile at h
  split at h
  · next s hs =>
    obtain rfl := Option.some.inj h
    refine ⟨.inl ⟨s, hs⟩, fun q => ?_⟩
    rw [node_put (ne_root_of_node_ne (t := t) fun h' => by rw [hs] at h'; cases h'),
      readFile_eq_some_iff.2 hs]
    rfl
  · next hnone =>
    split at h
    · next hparent =>
      obtain rfl := Option.some.inj h
      refine ⟨.inr ⟨hnone, isDirectory_iff.1 hparent⟩, fun q => ?_⟩
      have hread : t.readFile p = none := by rw [readFile, hnone]
      rw [node_put (ne_root_of_node_ne (t := t) fun h' => by rw [hnone] at h'; cases h'), hread]
      rfl
    · cases h
  · cases h

theorem node_changeMode {mode : ℕ} (h : t.changeMode p mode = some t') :
    ∃ s, t.node p = some (.file s) ∧
      ∀ q, t'.node q = if q = p then some (.file { s with mode }) else t.node q := by
  unfold changeMode at h
  split at h
  · next s hs =>
    obtain rfl := Option.some.inj h
    exact ⟨s, hs, fun q => node_put (ne_root_of_node_ne (t := t) fun h' => by rw [hs] at h'; cases h')⟩
  · cases h

/-! ### Everything lies in a directory -/

def Closed (t : FileTree (Stored β)) : Prop := ∀ p, p ≠ [] → t.node p ≠ none → t.node p.dropLast = some .directory

theorem Closed.above (h : t.Closed) (hq : t.node q ≠ none) (hp : p <+: q) (hne : p ≠ q) :
    t.node p = some .directory := by
  induction q using List.reverseRecOn with
  | nil => exact absurd (List.prefix_nil.1 hp) hne
  | append_singleton q name ih =>
    have hdir : t.node q = some .directory := by
      have hparent := h (q ++ [name]) (by simp) hq
      rwa [List.dropLast_concat] at hparent
    rcases List.prefix_concat_iff.1 hp with heq | hp
    · exact absurd heq hne
    · by_cases heq : p = q
      · rw [heq, hdir]
      · exact ih (by rw [hdir]; exact nofun) hp heq

theorem closed_of_items (h : ∀ item ∈ t.nodes.items, t.isDirectory item.1.dropLast = true) : t.Closed := by
  intro p hp hnode
  rw [node, if_neg hp] at hnode
  obtain ⟨n, hn⟩ := Option.ne_none_iff_exists'.1 hnode
  exact isDirectory_iff.1 (h (p, n) (OrderedDict.get_eq_some_iff.1 hn))

theorem Closed.put {n : Node (Stored β)} (h : t.Closed) (hnode : ∀ q, t'.node q = if q = p then some n else t.node q)
    (hparent : t.node p.dropLast = some .directory) (hold : t.node p ≠ some .directory) : t'.Closed := by
  intro q hq hne
  rw [hnode]
  by_cases hqp : q = p
  · subst hqp
    rw [if_neg fun heq => hold (by rw [← heq]; exact hparent)]
    exact hparent
  · rw [hnode, if_neg hqp] at hne
    have hdir := h q hq hne
    rw [if_neg fun heq => hold (by rw [← heq]; exact hdir)]
    exact hdir

theorem Closed.remove (h : t.Closed) (hnode : ∀ q, t'.node q = if q = p then none else t.node q)
    (hold : ∀ q, q ≠ [] → q.dropLast = p → t.node q = none) : t'.Closed := by
  intro q hq hne
  rw [hnode] at hne
  split at hne
  · exact absurd rfl hne
  · have hdir := h q hq hne
    rw [hnode, if_neg fun heq => hne (hold q hq heq)]
    exact hdir

theorem Closed.below_file (h : t.Closed) (hp : t.node p ≠ some .directory) :
    ∀ q, q ≠ [] → q.dropLast = p → t.node q = none := by
  intro q hq heq
  by_contra hne
  exact hp (heq ▸ h q hq hne)

theorem below_of_hasEntries (h : t.hasEntries p = false) (hq : p <+: q) (hne : q ≠ p) : t.node q = none := by
  by_contra hnode
  have hroot : q ≠ [] := by
    rintro rfl
    exact hne (List.prefix_nil.1 hq).symm
  rw [node, if_neg hroot] at hnode
  obtain ⟨n, hn⟩ := Option.ne_none_iff_exists'.1 hnode
  have hmem := OrderedDict.get_eq_some_iff.1 hn
  have hany : t.hasEntries p = true :=
    List.any_eq_true.2 ⟨(q, n), hmem, by simpa using ⟨hq, hne⟩⟩
  rw [h] at hany
  cases hany

theorem Closed.makeDirectory (hc : t.Closed) (h : t.makeDirectory p = some t') : t'.Closed := by
  obtain ⟨hnone, hparent, hnode⟩ := node_makeDirectory h
  exact hc.put hnode hparent (by rw [hnone]; exact nofun)

theorem Closed.removeDirectory (hc : t.Closed) (h : t.removeDirectory p = some t') : t'.Closed := by
  obtain ⟨-, -, hempty, hnode⟩ := node_removeDirectory h
  refine hc.remove hnode fun q hq heq => below_of_hasEntries hempty ?_ ?_
  · rw [← heq]
    exact List.dropLast_prefix q
  · rintro rfl
    have hlen := congrArg List.length heq
    have hpos := List.length_pos_iff.2 hq
    rw [List.length_dropLast] at hlen
    omega

theorem Closed.removeFile (hc : t.Closed) (h : t.removeFile p = some t') : t'.Closed := by
  obtain ⟨-, hdir, hnode⟩ := node_removeFile h
  exact hc.remove hnode (hc.below_file hdir)

theorem Closed.renameFile (hc : t.Closed) (h : t.renameFile p q = some t') : t'.Closed := by
  obtain ⟨n, hn, hn', hq, hparent, hnode⟩ := node_renameFile h
  have hp : t.node p ≠ some .directory := by
    rw [hn]
    exact fun heq => hn' (Option.some.inj heq)
  have hremoved : ∀ r, (t.remove p).node r = if r = p then none else t.node r :=
    fun r => node_remove (ne_root_of_node_ne hp)
  refine (hc.remove hremoved (hc.below_file hp)).put (p := q) (n := n) (fun r => ?_) ?_ ?_
  · rw [hnode, hremoved]
  · rw [hremoved, if_neg fun heq : q.dropLast = p => hp (heq ▸ hparent)]
    exact hparent
  · rw [hremoved]
    split
    · exact nofun
    · exact hq

theorem Closed.writeFile {mode : ℕ} (hc : t.Closed) (h : t.writeFile mode p content = some t') : t'.Closed := by
  obtain ⟨hold, hnode⟩ := node_writeFile h
  have hdir : t.node p ≠ some .directory := by
    rcases hold with ⟨s, hs⟩ | ⟨hnone, -⟩
    · rw [hs]
      exact nofun
    · rw [hnone]
      exact nofun
  refine hc.put hnode ?_ hdir
  rcases hold with ⟨s, hs⟩ | ⟨-, hparent⟩
  · exact hc p (ne_root_of_node_ne hdir) (by rw [hs]; exact nofun)
  · exact hparent

end FileTree

/-! ### Procedures -/

/-- What becomes of a call: a broken write leaves something else behind. -/
inductive FileFault (β : Type) where
  | fine
  | refused
  | torn (left : β)

/-- The tree, and the directories made so far, the latest first. -/
structure Disk (β : Type) where
  tree : FileTree (Stored β)
  made : List Location := []

/-- A procedure that calls the system; the number counts the calls. -/
abbrev FileProcedure (β α : Type) := ExceptT Unit (StateM (Disk β × ℕ)) α

section

variable {α γ : Type} (faults : ℕ → FileFault β)

def askSystem (question : Disk β → Option α) : FileProcedure β α := fun s =>
  match faults s.2, question s.1 with
  | .fine, some answer => (.ok answer, s.1, s.2 + 1)
  | _, _ => (.error (), s.1, s.2 + 1)

/-- A change of the tree, and what of it may have been done where it is broken off. -/
def callSystem (change : Disk β → Option (Disk β)) (broken : β → Disk β → Option (Disk β)) :
    FileProcedure β Unit := fun s =>
  match faults s.2 with
  | .fine =>
    match change s.1 with
    | some d => (.ok (), d, s.2 + 1)
    | none => (.error (), s.1, s.2 + 1)
  | .refused => (.error (), s.1, s.2 + 1)
  | .torn left => (.error (), (broken left s.1).getD s.1, s.2 + 1)

/-- A change that is made as a whole or not at all. -/
def changeTree (change : FileTree (Stored β) → Option (FileTree (Stored β))) : FileProcedure β Unit :=
  callSystem faults (fun d => (change d.tree).map fun tree => { d with tree }) fun _ _ => none

def mkdir (p : Location) : FileProcedure β Unit :=
  callSystem faults (fun d => (d.tree.makeDirectory p).map fun tree => ⟨tree, p :: d.made⟩) fun _ _ => none

def writeContent (mode : ℕ) (p : Location) (content : β) : FileProcedure β Unit :=
  callSystem faults (fun d => (d.tree.writeFile mode p content).map fun tree => { d with tree })
    fun left d => (d.tree.writeFile mode p left).map fun tree => { d with tree }

end

/-! ### What a procedure leaves -/

section

variable {α γ : Type} {P : Disk β → Prop} {Q : α → Disk β → Prop} {E : Disk β → Prop}

/-- A result with `Q`, or a failure with `E`. -/
def Ends (Q : α → Disk β → Prop) (E : Disk β → Prop) : Except Unit α × Disk β × ℕ → Prop
  | (.ok a, d, _) => Q a d
  | (.error _, d, _) => E d

def Yields (P : Disk β → Prop) (x : FileProcedure β α) (Q : α → Disk β → Prop) (E : Disk β → Prop) : Prop :=
  ∀ d n, P d → Ends Q E (x (d, n))

theorem yields_pure {a : α} (h : ∀ d, P d → Q a d) : Yields P (pure a) Q E := fun d _ hd => h d hd

theorem Yields.bind {R : γ → Disk β → Prop} {x : FileProcedure β γ} {f : γ → FileProcedure β α}
    (hx : Yields P x R E) (hf : ∀ b, Yields (R b) (f b) Q E) : Yields P (x >>= f) Q E := by
  intro d n hd
  have hend := hx d n hd
  show Ends Q E ((ExceptT.bindCont f (x (d, n)).1) (x (d, n)).2)
  cases hrun : x (d, n) with
  | mk result s =>
    rw [hrun] at hend
    cases result with
    | ok b => exact hf b s.1 s.2 hend
    | error e => exact hend

theorem Yields.mono {P' : Disk β → Prop} {Q' : α → Disk β → Prop} {E' : Disk β → Prop} {x : FileProcedure β α}
    (h : Yields P x Q E) (hP : ∀ d, P' d → P d) (hQ : ∀ a d, Q a d → Q' a d) (hE : ∀ d, E d → E' d) :
    Yields P' x Q' E' := by
  intro d n hd
  have hend := h d n (hP d hd)
  cases hrun : x (d, n) with
  | mk result s =>
    rw [hrun] at hend
    cases result with
    | ok a => exact hQ a _ hend
    | error e => exact hE _ hend

theorem yields_trivial (P : Disk β → Prop) (x : FileProcedure β α) : Yields P x (fun _ _ => True) fun _ => True := by
  intro d n _
  cases x (d, n) with
  | mk result s =>
    cases result with
    | ok a => trivial
    | error e => trivial

/-- What holds of the elements done so far is carried from one element to the next. -/
theorem yields_forM {I : List γ → Disk β → Prop} {f : γ → FileProcedure β PUnit} {l : List γ}
    (h : ∀ done c rest, l = done ++ c :: rest → Yields (I done) (f c) (fun _ => I (done ++ [c])) E) :
    Yields (I []) (l.forM f) (fun _ => I l) E := by
  have hfrom : ∀ rest done, l = done ++ rest → Yields (I done) (rest.forM f) (fun _ => I l) E := by
    intro rest
    induction rest with
    | nil =>
      intro done heq
      refine yields_pure fun d hd => ?_
      rw [heq, List.append_nil]
      exact hd
    | cons c rest ih =>
      intro done heq
      exact (h done c rest heq).bind fun _ => ih (done ++ [c]) (by rw [heq, List.append_assoc]; rfl)
  exact hfrom l [] rfl

variable {faults : ℕ → FileFault β}

theorem yields_askSystem {question : Disk β → Option α} (h : ∀ d a, P d → question d = some a → Q a d)
    (hE : ∀ d, P d → E d) : Yields P (askSystem faults question) Q E := by
  intro d n hd
  unfold askSystem
  split
  · next answer _ hanswer => exact h d answer hd hanswer
  · exact hE d hd

theorem yields_callSystem {change : Disk β → Option (Disk β)} {broken : β → Disk β → Option (Disk β)}
    {Q : Unit → Disk β → Prop} (h : ∀ d d', P d → change d = some d' → Q () d') (hE : ∀ d, P d → E d)
    (hbroken : ∀ left d d', P d → broken left d = some d' → E d') :
    Yields P (callSystem faults change broken) Q E := by
  intro d n hd
  unfold callSystem
  split
  · split
    · next d' hchange => exact h d d' hd hchange
    · exact hE d hd
  · exact hE d hd
  · next left _ =>
    show E ((broken left d).getD d)
    cases hleft : broken left d with
    | none => exact hE d hd
    | some d' => exact hbroken left d d' hd hleft

theorem yields_changeTree {change : FileTree (Stored β) → Option (FileTree (Stored β))} {Q : Unit → Disk β → Prop}
    (h : ∀ d tree, P d → change d.tree = some tree → Q () { d with tree }) (hE : ∀ d, P d → E d) :
    Yields P (changeTree faults change) Q E := by
  refine yields_callSystem (fun d d' hd hchange => ?_) hE fun left d d' _ hleft => (by cases hleft)
  obtain ⟨tree, htree, rfl⟩ := Option.map_eq_some_iff.1 hchange
  exact h d tree hd htree

theorem yields_mkdir {p : Location} {Q : Unit → Disk β → Prop}
    (h : ∀ d tree, P d → d.tree.makeDirectory p = some tree → Q () ⟨tree, p :: d.made⟩) (hE : ∀ d, P d → E d) :
    Yields P (mkdir faults p) Q E := by
  refine yields_callSystem (fun d d' hd hchange => ?_) hE fun left d d' _ hleft => (by cases hleft)
  obtain ⟨tree, htree, rfl⟩ := Option.map_eq_some_iff.1 hchange
  exact h d tree hd htree

theorem yields_writeContent {mode : ℕ} {p : Location} {content : β} {Q : Unit → Disk β → Prop}
    (h : ∀ d tree, P d → d.tree.writeFile mode p content = some tree → Q () { d with tree })
    (hE : ∀ d, P d → E d)
    (hbroken : ∀ left d tree, P d → d.tree.writeFile mode p left = some tree → E { d with tree }) :
    Yields P (writeContent faults mode p content) Q E := by
  refine yields_callSystem (fun d d' hd hchange => ?_) hE fun left d d' hd hleft => ?_
  · obtain ⟨tree, htree, rfl⟩ := Option.map_eq_some_iff.1 hchange
    exact h d tree hd htree
  · obtain ⟨tree, htree, rfl⟩ := Option.map_eq_some_iff.1 hleft
    exact hbroken left d tree hd htree

def Maintains (P : Disk β → Prop) (x : FileProcedure β α) : Prop := Yields P x (fun _ => P) P

theorem maintains_pure (a : α) : Maintains P (pure a) := yields_pure fun _ hd => hd

theorem Maintains.bind {x : FileProcedure β γ} {f : γ → FileProcedure β α} (hx : Maintains P x) (hf : ∀ b, Maintains P (f b)) :
    Maintains P (x >>= f) := Yields.bind hx hf

theorem maintains_forM {f : γ → FileProcedure β PUnit} {l : List γ} (h : ∀ c ∈ l, Maintains P (f c)) :
    Maintains P (l.forM f) :=
  yields_forM fun _ c _ heq => h c (by rw [heq]; exact List.mem_append_right _ List.mem_cons_self)

theorem maintains_askSystem (question : Disk β → Option α) : Maintains P (askSystem faults question) :=
  yields_askSystem (fun _ _ hd _ => hd) fun _ hd => hd

theorem maintains_changeTree {change : FileTree (Stored β) → Option (FileTree (Stored β))}
    (h : ∀ d tree, P d → change d.tree = some tree → P { d with tree }) : Maintains P (changeTree faults change) :=
  yields_changeTree h fun _ hd => hd

theorem maintains_mkdir {p : Location}
    (h : ∀ d tree, P d → d.tree.makeDirectory p = some tree → P ⟨tree, p :: d.made⟩) : Maintains P (mkdir faults p) :=
  yields_mkdir h fun _ hd => hd

theorem maintains_writeContent {mode : ℕ} {p : Location} {content : β}
    (h : ∀ d tree content, P d → d.tree.writeFile mode p content = some tree → P { d with tree }) :
    Maintains P (writeContent faults mode p content) :=
  yields_writeContent (fun d tree => h d tree content) (fun _ hd => hd) fun left d tree => h d tree left

end

end Phlo.Library
