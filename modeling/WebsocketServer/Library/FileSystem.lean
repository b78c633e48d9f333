import Mathlib

/-- Regular files as the POSIX calls see them. A name and a descriptor both refer to an inode,
    and an inode has at most one name: there are no hard links. -/
structure FileSystem (Path : Type) where
  dir : Path → Option Nat
  content : Nat → List UInt8
  fds : Nat → Option Nat
  unused : Nat
  named : ∀ {p i}, dir p = some i → i < unused
  held : ∀ {fd i}, fds fd = some i → i < unused
  oneName : ∀ {p q i}, dir p = some i → dir q = some i → p = q

namespace FileSystem
variable {Path : Type}

def empty : FileSystem Path where
  dir _ := none
  content _ := []
  fds _ := none
  unused := 0
  named := by simp
  held := by simp
  oneName := by simp

def read (fs : FileSystem Path) (p : Path) : Option (List UInt8) := (fs.dir p).map fs.content

def readFd (fs : FileSystem Path) (fd : Nat) : Option (List UInt8) := (fs.fds fd).map fs.content

def Opened (fs : FileSystem Path) (fd : Nat) (p : Path) : Prop :=
  ∃ i, fs.fds fd = some i ∧ fs.dir p = some i

/-- Cut to n bytes, or extended to n bytes with zeros. -/
def resize (n : Nat) (b : List UInt8) : List UInt8 := b.take n ++ List.replicate (n - b.length) 0

/-- A write past the end fills the gap with zeros; a write of nothing has no effect. -/
def overwrite (offset : Nat) (data b : List UInt8) : List UInt8 :=
  if data = [] then b else resize offset b ++ data ++ b.drop (offset + data.length)

/-- O_CREAT | O_TRUNC. The descriptor the kernel hands out was not in use. -/
def openTruncate [DecidableEq Path] (fs : FileSystem Path) (p : Path) (fd : Nat) :
    FileSystem Path :=
  match found : fs.dir p with
  | some i =>
      { fs with
        content := Function.update fs.content i []
        fds := Function.update fs.fds fd (some i)
        held := by
          intro fd' j h
          simp only [Function.update_apply] at h
          split at h
          · injection h with h
            exact h ▸ fs.named found
          · exact fs.held h }
  | none =>
      { dir := Function.update fs.dir p (some fs.unused)
        content := Function.update fs.content fs.unused []
        fds := Function.update fs.fds fd (some fs.unused)
        unused := fs.unused + 1
        named := by
          intro q j h
          simp only [Function.update_apply] at h
          split at h
          · injection h with h
            omega
          · have := fs.named h
            omega
        held := by
          intro fd' j h
          simp only [Function.update_apply] at h
          split at h
          · injection h with h
            omega
          · have := fs.held h
            omega
        oneName := by
          intro q r j hq hr
          simp only [Function.update_apply] at hq hr
          split at hq <;> split at hr
          · simp_all
          · injection hq with hq
            have := fs.named hr
            omega
          · injection hr with hr
            have := fs.named hq
            omega
          · exact fs.oneName hq hr }

def modify (fs : FileSystem Path) (fd : Nat) (f : List UInt8 → List UInt8) : FileSystem Path :=
  match fs.fds fd with
  | none => fs
  | some i => { fs with content := Function.update fs.content i (f (fs.content i)) }

def ftruncate (fs : FileSystem Path) (fd n : Nat) : FileSystem Path := fs.modify fd (resize n)

def pwrite (fs : FileSystem Path) (fd : Nat) (data : List UInt8) (offset : Nat) : FileSystem Path :=
  fs.modify fd (overwrite offset data)

def close (fs : FileSystem Path) (fd : Nat) : FileSystem Path :=
  { fs with
    fds := Function.update fs.fds fd none
    held := by
      intro fd' i h
      simp only [Function.update_apply] at h
      split at h
      · contradiction
      · exact fs.held h }

def unlink [DecidableEq Path] (fs : FileSystem Path) (p : Path) : FileSystem Path :=
  { fs with
    dir := Function.update fs.dir p none
    named := by
      intro q i h
      simp only [Function.update_apply] at h
      split at h
      · contradiction
      · exact fs.named h
    oneName := by
      intro q r i hq hr
      simp only [Function.update_apply] at hq hr
      split at hq <;> split at hr <;> try contradiction
      exact fs.oneName hq hr }

/-- An existing file called `new` loses its name; a missing `old` is an error without effect. -/
def rename [DecidableEq Path] (fs : FileSystem Path) (old new : Path) : FileSystem Path :=
  match found : fs.dir old with
  | none => fs
  | some i =>
      { fs with
        dir := fun q => if q = new then some i else if q = old then none else fs.dir q
        named := by
          intro q j h
          split at h
          · injection h with h
            exact h ▸ fs.named found
          · split at h
            · contradiction
            · exact fs.named h
        oneName := by
          intro q r j hq hr
          split at hq <;> split at hr
          · simp_all
          · split at hr
            · contradiction
            · injection hq with hq
              exact absurd (fs.oneName hr (hq ▸ found)) ‹_›
          · split at hq
            · contradiction
            · injection hr with hr
              exact absurd (fs.oneName hq (hr ▸ found)) ‹_›
          · split at hq <;> split at hr <;> try contradiction
            exact fs.oneName hq hr }

/- What the calls do to names and descriptors. -/
section
variable (fs : FileSystem Path) (fd n : Nat) (p q old new : Path) (f : List UInt8 → List UInt8)

@[simp] theorem close_dir : (fs.close fd).dir = fs.dir := rfl

@[simp] theorem close_fds : (fs.close fd).fds = Function.update fs.fds fd none := rfl

@[simp] theorem modify_dir : (fs.modify fd f).dir = fs.dir := by
  unfold modify
  split <;> rfl

@[simp] theorem modify_fds : (fs.modify fd f).fds = fs.fds := by
  unfold modify
  split <;> rfl

variable [DecidableEq Path]

@[simp] theorem unlink_dir : (fs.unlink p).dir = Function.update fs.dir p none := rfl

@[simp] theorem unlink_fds : (fs.unlink p).fds = fs.fds := rfl

@[simp] theorem open_dir : (fs.openTruncate p fd).dir =
    Function.update fs.dir p (some ((fs.dir p).getD fs.unused)) := by
  unfold openTruncate
  split
  · rename_i i found
    simp only [found, Option.getD_some]
    rw [← found, Function.update_eq_self]
  · rename_i missing
    simp only [missing, Option.getD_none]

@[simp] theorem open_fds : (fs.openTruncate p fd).fds =
    Function.update fs.fds fd (some ((fs.dir p).getD fs.unused)) := by
  unfold openTruncate
  split
  · rename_i i found
    simp only [found, Option.getD_some]
  · rename_i missing
    simp only [missing, Option.getD_none]

@[simp] theorem rename_fds : (fs.rename old new).fds = fs.fds := by
  unfold rename
  split <;> rfl

theorem rename_dir_old (other : old ≠ new) : (fs.rename old new).dir old = none := by
  unfold rename
  split
  · assumption
  · simp only [other, if_false, if_true]

theorem rename_dir_other (source : q ≠ old) (target : q ≠ new) :
    (fs.rename old new).dir q = fs.dir q := by
  unfold rename
  split
  · rfl
  · simp only [source, target, if_false]

end

/-- A system call that takes effect. -/
inductive Syscall (Path : Type) where
  | openTruncate (p : Path) (fd : Nat)
  | ftruncate (fd n : Nat)
  | pwrite (fd : Nat) (data : List UInt8) (offset : Nat)
  | close (fd : Nat)
  | rename (old new : Path)
  | unlink (p : Path)

def apply [DecidableEq Path] (fs : FileSystem Path) : Syscall Path → FileSystem Path
  | .openTruncate p fd => fs.openTruncate p fd
  | .ftruncate fd n => fs.ftruncate fd n
  | .pwrite fd data offset => fs.pwrite fd data offset
  | .close fd => fs.close fd
  | .rename old new => fs.rename old new
  | .unlink p => fs.unlink p

/-- How often a descriptor is closed before its number is handed out again. -/
def closes (fd : Nat) : List (Syscall Path) → Nat
  | [] => 0
  | .openTruncate _ fd' :: calls => if fd' = fd then 0 else closes fd calls
  | .close fd' :: calls => (if fd' = fd then 1 else 0) + closes fd calls
  | .ftruncate _ _ :: calls => closes fd calls
  | .pwrite _ _ _ :: calls => closes fd calls
  | .rename _ _ :: calls => closes fd calls
  | .unlink _ :: calls => closes fd calls

section
variable {fs : FileSystem Path} {fd fd' : Nat} {p q : Path}

theorem opened_unique (hp : fs.Opened fd p) (hq : fs.Opened fd q) : p = q := by
  obtain ⟨i, here, name⟩ := hp
  obtain ⟨j, there, name'⟩ := hq
  rw [here] at there
  injection there with same
  exact fs.oneName name (same ▸ name')

theorem opened_read (opened : fs.Opened fd p) : fs.read p = fs.readFd fd := by
  obtain ⟨i, here, name⟩ := opened
  simp only [read, readFd, here, name]

theorem opened_exists (opened : fs.Opened fd p) : ∃ b, fs.readFd fd = some b := by
  obtain ⟨i, here, _⟩ := opened
  exact ⟨fs.content i, by simp only [readFd, here, Option.map_some]⟩

@[simp] theorem modify_opened (f : List UInt8 → List UInt8) :
    (fs.modify fd f).Opened fd' q ↔ fs.Opened fd' q := by
  unfold modify
  split <;> exact Iff.rfl

theorem modify_read [DecidableEq Path] (f : List UInt8 → List UInt8) (opened : fs.Opened fd p) :
    (fs.modify fd f).read q = if q = p then (fs.read p).map f else fs.read q := by
  obtain ⟨i, here, name⟩ := opened
  unfold modify read
  simp only [here]
  split
  · rename_i same
    simp only [same, name, Option.map_some, Function.update_self]
  · rename_i other
    cases there : fs.dir q with
    | none => rfl
    | some j =>
      have apart : j ≠ i := by
        intro same
        exact other (fs.oneName there (same ▸ name))
      simp only [Option.map_some, Function.update_of_ne apart]

@[simp] theorem close_read : (fs.close fd).read q = fs.read q := rfl

theorem close_keeps (other : fd' ≠ fd) (opened : fs.Opened fd' q) : (fs.close fd).Opened fd' q := by
  obtain ⟨i, here, name⟩ := opened
  exact ⟨i, by simp only [close, Function.update_of_ne other, here], name⟩

variable [DecidableEq Path]

theorem open_opened : (fs.openTruncate p fd).Opened fd p := by
  unfold openTruncate Opened
  split
  · rename_i i found
    exact ⟨i, Function.update_self .., found⟩
  · exact ⟨fs.unused, Function.update_self .., Function.update_self ..⟩

theorem open_keeps (other : fd' ≠ fd) (opened : fs.Opened fd' q) :
    (fs.openTruncate p fd).Opened fd' q := by
  obtain ⟨i, here, name⟩ := opened
  unfold openTruncate Opened
  split
  · exact ⟨i, (Function.update_of_ne other ..).trans here, name⟩
  · rename_i missing
    have apart : q ≠ p := by
      intro same
      rw [same, missing] at name
      contradiction
    exact ⟨i, (Function.update_of_ne other ..).trans here,
      (Function.update_of_ne apart ..).trans name⟩

theorem open_read : (fs.openTruncate p fd).read q = if q = p then some [] else fs.read q := by
  unfold openTruncate read
  split
  · rename_i i found
    split
    · rename_i same
      simp only [same, found, Option.map_some, Function.update_self]
    · rename_i other
      cases there : fs.dir q with
      | none => rfl
      | some j =>
        have apart : j ≠ i := by
          intro same
          exact other (fs.oneName there (same ▸ found))
        simp only [Option.map_some, Function.update_of_ne apart]
  · split
    · rename_i same
      simp only [same, Option.map_some, Function.update_self]
    · rename_i other
      simp only [Function.update_of_ne other]
      cases there : fs.dir q with
      | none => rfl
      | some j =>
        have apart : j ≠ fs.unused := Nat.ne_of_lt (fs.named there)
        simp only [Option.map_some, Function.update_of_ne apart]

theorem unlink_read : (fs.unlink p).read q = if q = p then none else fs.read q := by
  simp only [unlink, read, Function.update_apply]
  split <;> rfl

theorem unlink_keeps (other : q ≠ p) (opened : fs.Opened fd' q) : (fs.unlink p).Opened fd' q := by
  obtain ⟨i, here, name⟩ := opened
  exact ⟨i, here, by simp only [unlink, Function.update_of_ne other, name]⟩

theorem rename_read {old new : Path} {b : List UInt8} (found : fs.read old = some b) :
    (fs.rename old new).read q =
      if q = new then some b else if q = old then none else fs.read q := by
  unfold rename
  split
  · rename_i missing
    simp [read, missing] at found
  · rename_i i name
    have bytes : fs.content i = b := by simpa [read, name] using found
    simp only [read]
    split
    · simp only [Option.map_some, bytes]
    · split <;> rfl

theorem rename_keeps {old new : Path} (source : q ≠ old) (target : q ≠ new)
    (opened : fs.Opened fd' q) : (fs.rename old new).Opened fd' q := by
  obtain ⟨i, here, name⟩ := opened
  unfold rename Opened
  split
  · exact ⟨i, here, name⟩
  · exact ⟨i, here, by simp only [target, source, if_false, name]⟩

end

@[simp] theorem length_resize (n : Nat) (b : List UInt8) : (resize n b).length = n := by
  simp only [resize, List.length_append, List.length_take, List.length_replicate]
  omega

theorem length_overwrite {offset : Nat} {data b : List UInt8}
    (inside : offset + data.length ≤ b.length) : (overwrite offset data b).length = b.length := by
  unfold overwrite
  split
  · rfl
  · simp only [List.length_append, length_resize, List.length_drop]
    omega

theorem getElem?_overwrite {offset : Nat} {data b : List UInt8}
    (inside : offset + data.length ≤ b.length) (k : Nat) :
    (overwrite offset data b)[k]? =
      if offset ≤ k ∧ k < offset + data.length then data[k - offset]? else b[k]? := by
  unfold overwrite
  split
  · rename_i empty
    subst empty
    rw [if_neg (by simp only [List.length_nil]; omega)]
  · have front : resize offset b = b.take offset := by
      have none_added : offset - b.length = 0 := by omega
      simp [resize, none_added]
    have front_length : (b.take offset).length = offset := by simp only [List.length_take]; omega
    rw [front, List.append_assoc]
    by_cases before : k < offset
    · rw [if_neg (by omega), List.getElem?_append_left (by omega), List.getElem?_take,
        if_pos before]
    · rw [List.getElem?_append_right (by omega), front_length]
      by_cases within : k < offset + data.length
      · rw [if_pos ⟨by omega, within⟩, List.getElem?_append_left (by omega)]
      · rw [if_neg (by omega), List.getElem?_append_right (by omega), List.getElem?_drop]
        congr 1
        omega

theorem overwrite_same_iff {offset : Nat} {data b : List UInt8} :
    overwrite offset data b = b ↔ data <+: b.drop offset := by
  unfold overwrite
  split
  · rename_i empty
    exact iff_of_true rfl (by rw [empty]; exact List.nil_prefix)
  · rename_i filled
    have positive := List.length_pos_iff.mpr filled
    constructor
    · intro same
      have behind := congrArg (List.drop offset) same
      rw [List.append_assoc, List.drop_left' (length_resize offset b)] at behind
      exact ⟨_, behind⟩
    · rintro ⟨rest, shape⟩
      have sizes := congrArg List.length shape
      rw [List.length_append, List.length_drop] at sizes
      have front : resize offset b = b.take offset := by
        have none_added : offset - b.length = 0 := by omega
        simp [resize, none_added]
      have back : b.drop (offset + data.length) = rest := by
        rw [← List.drop_drop, ← shape, List.drop_left]
      rw [front, back, List.append_assoc, shape, List.take_append_drop]

theorem overwrite_stands (offset : Nat) (data b : List UInt8) :
    data <+: (overwrite offset data b).drop offset := by
  unfold overwrite
  split
  · rename_i empty
    rw [empty]
    exact List.nil_prefix
  · rw [List.append_assoc, List.drop_left' (length_resize offset b)]
    exact List.prefix_append _ _

theorem overwrite_apart {offset offset' : Nat} {kept data b : List UInt8}
    (apart : offset' + data.length ≤ offset ∨ offset + kept.length ≤ offset')
    (stands : kept <+: b.drop offset) : kept <+: (overwrite offset' data b).drop offset := by
  unfold overwrite
  split
  · exact stands
  · rcases apart with before | behind
    · have front : (resize offset' b ++ data).length = offset' + data.length := by
        rw [List.length_append, length_resize]
      have reach : offset' + data.length + (offset - (offset' + data.length)) = offset := by omega
      rw [List.drop_append, front, List.drop_of_length_le (by omega), List.nil_append,
        List.drop_drop, reach]
      exact stands
    · have inside : kept <+: (b.take offset').drop offset := by
        rw [List.drop_take, List.prefix_take_iff]
        exact ⟨stands, by omega⟩
      rw [resize, List.append_assoc, List.append_assoc, List.drop_append]
      exact inside.trans (List.prefix_append _ _)

end FileSystem
