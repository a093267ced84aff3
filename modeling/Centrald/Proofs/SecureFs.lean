import Centrald.Common.SecureFs
import Centrald.Durable.Undisturbed

/-!
# `Centrald.Proofs.SecureFs`: the runs of the secure file functions

`undisturbed_writeNewFile`: when neither the file nor its temporary sibling
exists, `writeNewFile` creates the file, with its contents synced, and
nothing else, and a crash on the way leaves, apart from the siblings, all
files as before or all as afterwards. `undisturbed_replaceFileAtomically`
is for a file that is replaced. `steps_writeNewFile` and
`steps_replaceFileAtomically` say the same in terms of the bytes on disk.
-/

set_option autoImplicit false

namespace Centrald.Proofs

open Durable Common Function

variable {ν φ : Type} [DecidableEq ν] [FileData φ]

omit [FileData φ] in
/-- Linking a finished sibling into place and removing the sibling
leaves the file alone. -/
private theorem update_link_remove {path temporary : ν} {s : Fs ν φ} (hne : temporary ≠ path)
    (ht : s temporary = none) (f1 f2 f3 : φ) :
    update (update (update (update
      (update s temporary (some f1)) temporary (some f2)) temporary (some f3))
      path (some f3)) temporary none = update s path (some f3) := by
  grind

/-! ### Crashes -/

/-- Apart from the names in `siblings`, the files are those of `s`. -/
def AgreeExcept (siblings : List ν) (s t : Fs ν φ) : Prop := ∀ x, x ∉ siblings → t x = s x

section AgreeExcept

variable {s t : Fs ν φ} {temporary : ν}

omit [FileData φ] in
theorem AgreeExcept.update (h : AgreeExcept [temporary] s t) (sibling : Option φ) :
    AgreeExcept [temporary] s (update t temporary sibling) := by
  intro x hx
  have hxt : x ≠ temporary := fun heq => hx (List.mem_singleton.2 heq)
  rw [update_of_ne hxt]
  exact h x hx

omit [FileData φ] in
theorem AgreeExcept.link {siblings : List ν} (h : AgreeExcept siblings s t) (path : ν)
    (file : Option φ) :
    AgreeExcept siblings (Function.update s path file) (Function.update t path file) := by
  intro x hx
  by_cases hxp : x = path
  · rw [hxp, update_self, update_self]
  · rw [update_of_ne hxp, update_of_ne hxp]
    exact h x hx

end AgreeExcept

section Crashes

variable {survives : Fs ν φ → Fs ν φ → Prop} {C : Fs ν φ → Prop} {contents : Bytes} {file : φ}

/-- A new file: a crash on the way leaves the files without it or with it. -/
theorem undisturbed_writeNewFile {path temporary : ν} {s : Fs ν φ}
    (hfile : FileData.flush (FileData.edit FileData.empty (.append contents)) = file)
    (hne : temporary ≠ path) (hp : s path = none) (ht : s temporary = none)
    (hbefore : ∀ t u, AgreeExcept [temporary] s t → survives t u → C u)
    (hafter : ∀ t u, AgreeExcept [temporary] (update s path (some file)) t → survives t u → C u) :
    Undisturbed survives s (writeNewFile path temporary contents) (.ok ())
      (update s path (some file)) C := by
  have h0 : AgreeExcept [temporary] s s := fun x _ => rfl
  unfold writeNewFile
  refine .bind (.stat (hbefore s · h0)) ?_
  rw [hp]
  simp only [Option.isSome_none, Bool.false_eq_true, if_false]
  refine .bind (.act rfl (hbefore s · h0) (hbefore s · h0) fun _ _ h => h.elim) ?_
  -- create, write and sync the temporary sibling; a crash may cut the write
  have h1 := h0.update (some FileData.empty)
  refine .bind (.act (by simp only [FileOp.run, ht]) (hbefore s · h0) (hbefore _ · h1)
    fun _ _ h => h.elim) ?_
  have h2 := h1.update (some (FileData.edit FileData.empty (.append contents)))
  refine .bind (.act (by simp only [FileOp.run, update_self]) (hbefore _ · h1)
    (hbefore _ · h2) ?_) ?_
  · rintro t u ⟨n, rfl⟩ hu
    simp only [FileOp.run, update_self] at hu
    exact hbefore _ u (h1.update _) hu
  have h3 := h2.update (some file)
  refine .bind (.act (by simp only [FileOp.run, update_self, hfile]) (hbefore _ · h2)
    (hbefore _ · h3) fun _ _ h => h.elim) ?_
  -- link it into place: from here on the file is there
  have h4 := h3.link path (some file)
  refine .bind (.attempt (by
    simp only [FileOp.run, update_self, update_of_ne hne.symm, hp]; rfl)
    (hbefore _ · h3) (hafter _ · h4) fun _ _ h => h.elim) ?_
  -- remove the sibling
  have h5 := h4.update none
  refine .bind (.attempt (by
    simp only [FileOp.run, update_self, update_of_ne hne]; rfl)
    (hafter _ · h4) (hafter _ · h5) fun _ _ h => h.elim) ?_
  rw [update_link_remove hne ht] at h5 ⊢
  exact .act rfl (hafter _ · h5) (hafter _ · h5) fun _ _ h => h.elim

/-- A new file can be written with its contents synced. -/
theorem exec_writeNewFile {fallible : FileOp ν → Prop} {path temporary : ν} {s : Fs ν φ}
    (contents : Bytes) (hne : temporary ≠ path) (hp : s path = none) (ht : s temporary = none) :
    Exec (fileSem fallible survives) (writeNewFile path temporary contents).run s
      (.done (.ok ()) (update s path
        (some (FileData.flush (FileData.edit FileData.empty (.append contents)))))) :=
  (undisturbed_writeNewFile (C := fun _ => True) rfl hne hp ht (fun _ _ _ _ => trivial)
    fun _ _ _ _ => trivial).exec_done

/-- A sibling that is there already makes it fail. -/
theorem undisturbed_writeNewFile_taken {path temporary : ν} {s : Fs ν φ} (hp : s path = none)
    (ht : s temporary ≠ none) (hC : ∀ u, survives s u → C u) :
    Undisturbed survives s (writeNewFile path temporary contents) (.error .io) s C := by
  obtain ⟨sibling, hsibling⟩ := Option.ne_none_iff_exists'.1 ht
  have hcreate : (FileOp.createNew temporary).run s = (s, .failed .alreadyExists) := by
    simp only [FileOp.run, hsibling]
  unfold writeNewFile
  refine .bind (.stat hC) ?_
  rw [hp]
  simp only [Option.isSome_none, Bool.false_eq_true, if_false]
  exact .bind (.act rfl hC hC fun _ _ h => h.elim)
    (.bind_error (.act_failed hcreate hC hC fun _ _ h => h.elim))

/-- A replaced file: a crash on the way leaves the old or the new file. -/
theorem undisturbed_replaceFileAtomically {path replacement temporary : ν} {s : Fs ν φ} {old : φ}
    (hfile : FileData.flush (FileData.edit FileData.empty (.append contents)) = file)
    (hne : temporary ≠ replacement) (hp : s path = some old) (hr : s replacement = none)
    (ht : s temporary = none)
    (hbefore : ∀ t u, AgreeExcept [replacement, temporary] s t → survives t u → C u)
    (hafter : ∀ u, survives (update s path (some file)) u → C u) :
    Undisturbed survives s (replaceFileAtomically path replacement temporary contents) (.ok ())
      (update s path (some file)) C := by
  have h0 : AgreeExcept [replacement, temporary] s s := fun x _ => rfl
  have h1 : AgreeExcept [replacement, temporary] s (update s replacement (some file)) := by
    intro x hx
    grind
  unfold replaceFileAtomically
  refine .bind (.stat (hbefore s · h0)) ?_
  rw [hp]
  simp only [Option.isSome_some, if_true]
  refine .bind (undisturbed_writeNewFile hfile hne hr ht ?_ ?_) ?_
  · intro t u h
    exact hbefore t u fun x hx => h x fun hmem => hx (List.mem_cons_of_mem _ hmem)
  · intro t u h
    refine hbefore t u fun x hx => (h x fun hmem => hx (List.mem_cons_of_mem _ hmem)).trans ?_
    exact h1 x hx
  · have hrename : (FileOp.rename replacement path).run (update s replacement (some file)) =
        (update s path (some file), .done) := by
      simp only [FileOp.run, update_self]
      rw [update_idem, ← hr, update_eq_self]
    refine .bind (.attempt hrename (hbefore _ · h1) hafter fun _ _ h => h.elim) ?_
    exact .act rfl hafter hafter fun _ _ h => h.elim

end Crashes

section Steps

variable {named unused : Set ν} {v v' : Fs ν Bytes} {C : Fs ν Bytes → Prop} {contents : Bytes}

omit [DecidableEq ν] in
/-- Siblings with unused names do not change the named files. -/
theorem onDisk_of_agreeExcept {siblings : List ν} {s t : Fs ν File}
    (hapart : ∀ x ∈ siblings, x ∉ named) (h : AgreeExcept siblings s t)
    (hs : OnDisk named v s) : OnDisk named v t :=
  hs.of_agree fun x hx => h x fun hmem => hapart x hmem hx

theorem steps_writeNewFile {path temporary : ν} (hpath : path ∈ named) (hapart : path ∉ unused)
    (htemporary : temporary ∈ unused) (hfree : temporary ∉ named) (hv : v path = none)
    (hv' : update v path (some contents) = v') (hC : C v) (hC' : C v') :
    Steps named unused v (writeNewFile path temporary contents) (.ok ()) v' C := by
  intro s hs hu
  have hs' := hv' ▸ hs.update path (some contents)
  have hnamed : ∀ x ∈ [temporary], x ∉ named := fun x hx => List.mem_singleton.1 hx ▸ hfree
  have hne : temporary ≠ path := fun heq => hfree (heq ▸ hpath)
  refine ⟨_, hs', hu.update_of_notMem hapart _, undisturbed_writeNewFile rfl hne
    ?_ (hu _ htemporary) ?_ ?_⟩
  · rw [hs path hpath, hv]
    rfl
  · intro t u ht
    exact (onDisk_of_agreeExcept hnamed ht hs).crash hC u
  · intro t u ht
    exact (onDisk_of_agreeExcept hnamed ht hs').crash hC' u

theorem steps_replaceFileAtomically {path replacement temporary : ν} {bytes : Bytes}
    (hpath : path ∈ named) (hapart : path ∉ unused) (hreplacement : replacement ∈ unused)
    (hrfree : replacement ∉ named) (htemporary : temporary ∈ unused) (htfree : temporary ∉ named)
    (hne : temporary ≠ replacement) (hv : v path = some bytes)
    (hv' : update v path (some contents) = v') (hC : C v) (hC' : C v') :
    Steps named unused v (replaceFileAtomically path replacement temporary contents) (.ok ())
      v' C := by
  intro s hs hu
  have hs' := hv' ▸ hs.update path (some contents)
  have hfile : s path = some (.durable bytes) := by
    rw [hs path hpath, hv]
    rfl
  refine ⟨_, hs', hu.update_of_notMem hapart _, undisturbed_replaceFileAtomically rfl hne
    hfile (hu _ hreplacement) (hu _ htemporary) ?_ (hs'.crash hC')⟩
  intro t u ht
  refine (onDisk_of_agreeExcept ?_ ht hs).crash hC u
  grind

end Steps

end Centrald.Proofs
