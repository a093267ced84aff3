import Centrald.Durable.FileSystem

/-!
# `Durable.Undisturbed`: file programs that only a crash disturbs

When every operation succeeds if it can, a file program has one run from
each state. `Undisturbed survives s p r s' C` says that this run of `p`
from `s` returns `r` in `s'` and that every state a crash leaves on the
way is in `C`. The rules compute the run operation by operation, for any
kind of file and any loss that a crash may bring.

Many programs never write to a file that has its final name: they write
and sync a sibling and then link or rename it. Between two operations the
named files are then on disk as a whole. `Steps named unused v p r v' C` speaks
of such programs in terms of the bytes of the named files alone: from
the bytes `v` the program returns `r` with the bytes `v'`, and a crash of
the process or of the machine leaves bytes in `C`. The names in
`unused` are those the program may use for siblings.
-/

set_option autoImplicit false

namespace Durable

open Function

section Undisturbed

variable {ν φ ε ε' α β : Type} [DecidableEq ν] [FileData φ] {survives : Fs ν φ → Fs ν φ → Prop}

/-- From `s`, the program `p` returns `r` in `s'`, and crashes on the way
leave states in `C`. -/
def Undisturbed (survives : Fs ν φ → Fs ν φ → Prop) (s : Fs ν φ) (p : FileM ε ν α)
    (r : Except ε α) (s' : Fs ν φ) (C : Fs ν φ → Prop) : Prop :=
  Triple (fileSem (fun _ => False) survives) (fun t => t = s) p.run
    (fun r' t => r' = r ∧ t = s') C

namespace Undisturbed

variable {s s' s'' : Fs ν φ} {p : FileM ε ν α} {f : α → FileM ε ν β} {C : Fs ν φ → Prop}

section

variable {r : Except ε α} (h : Undisturbed survives s p r s' C)
include h

/-- The result of a run that ends. -/
theorem done {r' : Except ε α} {t : Fs ν φ}
    (hexec : Exec (fileSem (fun _ => False) survives) p.run s (.done r' t)) :
    r' = r ∧ t = s' :=
  h s rfl _ hexec

/-- The state of a run that stops. -/
theorem crashed {t : Fs ν φ}
    (hexec : Exec (fileSem (fun _ => False) survives) p.run s (.crashed t)) : C t :=
  h s rfl _ hexec

/-- The undisturbed run is there, also where operations may fail. -/
theorem exec_done {fallible : FileOp ν → Prop} :
    Exec (fileSem fallible survives) p.run s (.done r s') := by
  obtain ⟨hr, hs⟩ := h.done (exec_runWith (f := FileOp.run) (fun _ _ => Or.inl rfl) p.run s)
  rw [← hr, ← hs]
  exact exec_runWith (fun _ _ => Or.inl rfl) p.run s

end

section

variable (hC : ∀ t, survives s t → C t)
include hC

theorem ofExcept {r : Except ε α} :
    Undisturbed survives s (FileM.ofExcept r : FileM ε ν α) r s C := by
  refine Triple.ret ?_ ?_
  · intro t ht
    exact ⟨rfl, ht⟩
  · intro t t' ht hsurv
    subst ht
    exact hC t' hsurv

theorem pure {a : α} : Undisturbed survives s (pure a : FileM ε ν α) (.ok a) s C :=
  ofExcept hC

theorem throw {e : ε} : Undisturbed survives s (throw e : FileM ε ν α) (.error e) s C :=
  ofExcept hC

end

/-- A crash after the run. -/
theorem kept {r : Except ε α} (hp : Undisturbed survives s p r s' C) (t : Fs ν φ)
    (hsurv : survives s' t) : C t :=
  hp.crashed (hp.exec_done.crash_of_done hsurv)

/-- A part, and what is made of its result. -/
theorem cont {r : Except ε α} {k : Except ε α → Prog (FileOp ν) FileReply (Except ε' β)}
    {r' : Except ε' β} (hp : Undisturbed survives s p r s' C)
    (hk : Undisturbed survives s' (ExceptT.mk (k r) : FileM ε' ν β) r' s'' C) :
    Undisturbed survives s (ExceptT.mk (p.run >>= k) : FileM ε' ν β) r' s'' C := by
  intro t ht out hexec
  rcases (exec_bind_iff _ _ _ _).1 hexec with ⟨r', t', hr, hrest⟩ | ⟨t', hcr, rfl⟩
  · obtain ⟨rfl, rfl⟩ := hp t ht _ hr
    exact hk _ rfl out hrest
  · exact hp t ht _ hcr

/-- A part that succeeds, and the rest. -/
theorem bind {a : α} {r : Except ε β} (hp : Undisturbed survives s p (.ok a) s' C)
    (hf : Undisturbed survives s' (f a) r s'' C) : Undisturbed survives s (p >>= f) r s'' C :=
  hp.cont hf

variable {e : ε}

/-- A part that fails ends the program. -/
theorem bind_error (hp : Undisturbed survives s p (.error e) s' C) :
    Undisturbed survives s (p >>= f) (.error e) s' C :=
  hp.cont (ofExcept hp.kept)

/-- Only the name of the error changes. -/
theorem adapt {r : Except ε α} (g : ε → ε') (hp : Undisturbed survives s p r s' C) :
    Undisturbed survives s (ExceptT.adapt g p) (r.mapError g) s' C :=
  hp.cont (ofExcept hp.kept)

/-- A part whose error is looked at. -/
theorem result {r : Except ε α} (hp : Undisturbed survives s p r s' C) :
    Undisturbed survives s (FileM.result p : FileM ε' ν (Except ε α)) (.ok r) s' C :=
  hp.cont (ofExcept hp.kept)

variable {op : FileOp ν}

/-- One operation, whatever is made of its reply. -/
theorem call {k : FileReply → Except ε α} {r : FileReply}
    (hrun : op.run s = (s', r)) (hC : ∀ t, survives s t → C t) (hC' : ∀ t, survives s' t → C t)
    (htorn : ∀ t t', op.Partly s t → survives t t' → C t') :
    Undisturbed survives s (ExceptT.mk (.call op fun r => .ret (k r)) : FileM ε ν α) (k r) s'
      C := by
  refine Triple.call ?_ ?_ fun reply => ?_
  · intro t t' ht
    subst ht
    exact hC t'
  · intro t t' t'' ht
    subst ht
    exact htorn t' t''
  · rintro t ⟨t0, rfl, hreply | ⟨hfalse, -⟩⟩ out hexec
    · cases hrun.symm.trans hreply
      rcases (exec_ret_iff _ _ _).1 hexec with rfl | ⟨t', hsurv, rfl⟩
      · exact ⟨rfl, rfl⟩
      · exact hC' t' hsurv
    · exact hfalse.elim

theorem attempt {r : FileReply} (hrun : op.run s = (s', r))
    (hC : ∀ t, survives s t → C t) (hC' : ∀ t, survives s' t → C t)
    (htorn : ∀ t t', op.Partly s t → survives t t' → C t') :
    Undisturbed survives s (FileM.attempt op : FileM ε ν FileReply) (.ok r) s' C :=
  call hrun hC hC' htorn

theorem act (hrun : op.run s = (s', .done))
    (hC : ∀ t, survives s t → C t) (hC' : ∀ t, survives s' t → C t)
    (htorn : ∀ t t', op.Partly s t → survives t t' → C t') :
    Undisturbed survives s (FileM.act op e) (.ok ()) s' C :=
  call hrun hC hC' htorn

/-- An operation that fails ends the program. -/
theorem act_failed {kind : IoErrorKind}
    (hrun : op.run s = (s', .failed kind)) (hC : ∀ t, survives s t → C t)
    (hC' : ∀ t, survives s' t → C t) (htorn : ∀ t t', op.Partly s t → survives t t' → C t') :
    Undisturbed survives s (FileM.act op e) (.error e) s' C :=
  call hrun hC hC' htorn

theorem stat {x : ν} (hC : ∀ t, survives s t → C t) :
    Undisturbed survives s (FileM.stat x : FileM ε ν Bool) (.ok (s x).isSome) s C := by
  rw [← found_beq (s x).isSome]
  exact call rfl hC hC fun _ _ ht => ht.elim

theorem read {x : ν} {file : φ} (hx : s x = some file) (hC : ∀ t, survives s t → C t) :
    Undisturbed survives s (FileM.read x e) (.ok (FileData.contents file)) s C := by
  have hrun : (FileOp.read x).run s = (s, .data (FileData.contents file)) := by
    simp only [FileOp.run, hx]
  exact call hrun hC hC fun _ _ ht => ht.elim

end Undisturbed

end Undisturbed

/-! ### Programs over files that are on disk as a whole -/

section Steps

variable {ν : Type}

/-- The files `named` have the bytes `v`, and these are on disk. -/
def OnDisk (named : Set ν) (v : Fs ν Bytes) (s : Fs ν File) : Prop :=
  ∀ x ∈ named, s x = (v x).map File.durable

/-- There are no files with the names `unused`. -/
def Unused (unused : Set ν) (s : Fs ν File) : Prop := ∀ x ∈ unused, s x = none

variable {named unused : Set ν} {v v' v'' : Fs ν Bytes} {s t : Fs ν File}

/-- A crash keeps what is on disk. -/
theorem OnDisk.survives (h : OnDisk named v s) (hsurv : LosesUnsynced s t) : OnDisk named v t := by
  intro x hx
  have hs := h x hx
  cases hv : v x with
  | none =>
    rw [hv] at hs
    rcases hsurv with rfl | hloss
    · exact hs
    · grind
  | some bytes =>
    rw [hv] at hs
    exact hsurv.durable hs

/-- Other files do not matter. -/
theorem OnDisk.of_agree (h : OnDisk named v s) (hagree : ∀ x ∈ named, t x = s x) :
    OnDisk named v t := fun x hx => (hagree x hx).trans (h x hx)

/-- A crash where the files have bytes in `C`. -/
theorem OnDisk.crash {C : Fs ν Bytes → Prop} (h : OnDisk named v s) (hC : C v) (t : Fs ν File)
    (hsurv : LosesUnsynced s t) : ∃ w, C w ∧ OnDisk named w t :=
  ⟨v, hC, h.survives hsurv⟩

variable [DecidableEq ν]

theorem OnDisk.update (h : OnDisk named v s) (x : ν) (file : Option Bytes) :
    OnDisk named (update v x file) (update s x (file.map File.durable)) := by
  intro y hy
  by_cases hxy : y = x
  · grind
  · rw [update_of_ne hxy, update_of_ne hxy]
    exact h y hy

theorem Unused.update_of_notMem (h : Unused unused s) {x : ν} (hx : x ∉ unused)
    (file : Option File) : Unused unused (update s x file) := by
  intro y hy
  have hne : y ≠ x := fun heq => hx (heq ▸ hy)
  rw [update_of_ne hne]
  exact h y hy

variable {ε ε' α β : Type}

/-- From the bytes `v` of the files `named`, the program `p` returns `r`
with the bytes `v'`. Before and after it the names `unused` are free. A
crash leaves the files with bytes in `C`. -/
def Steps (named unused : Set ν) (v : Fs ν Bytes) (p : FileM ε ν α) (r : Except ε α)
    (v' : Fs ν Bytes) (C : Fs ν Bytes → Prop) : Prop :=
  ∀ s, OnDisk named v s → Unused unused s → ∃ s', OnDisk named v' s' ∧ Unused unused s' ∧
    Undisturbed LosesUnsynced s p r s' fun t => ∃ w, C w ∧ OnDisk named w t

namespace Steps

variable {p : FileM ε ν α} {f : α → FileM ε ν β} {C C' : Fs ν Bytes → Prop}

theorem ofExcept {r : Except ε α} (hC : C v) :
    Steps named unused v (FileM.ofExcept r : FileM ε ν α) r v C :=
  fun s hs hu => ⟨s, hs, hu, .ofExcept (hs.crash hC)⟩

theorem pure {a : α} (hC : C v) : Steps named unused v (pure a : FileM ε ν α) (.ok a) v C :=
  fun s hs hu => ⟨s, hs, hu, .pure (hs.crash hC)⟩

variable {e : ε}

theorem throw (hC : C v) : Steps named unused v (throw e : FileM ε ν α) (.error e) v C :=
  fun s hs hu => ⟨s, hs, hu, .throw (hs.crash hC)⟩

theorem bind {a : α} {r : Except ε β} (hp : Steps named unused v p (.ok a) v' C)
    (hf : Steps named unused v' (f a) r v'' C) : Steps named unused v (p >>= f) r v'' C := by
  intro s hs hu
  obtain ⟨s', hs', hu', hrun⟩ := hp s hs hu
  obtain ⟨s'', hs'', hu'', hrun'⟩ := hf s' hs' hu'
  exact ⟨s'', hs'', hu'', hrun.bind hrun'⟩

theorem bind_error (hp : Steps named unused v p (.error e) v' C) :
    Steps named unused v (p >>= f) (.error e) v' C := by
  intro s hs hu
  obtain ⟨s', hs', hu', hrun⟩ := hp s hs hu
  exact ⟨s', hs', hu', hrun.bind_error⟩

theorem adapt {r : Except ε α} (g : ε → ε') (hp : Steps named unused v p r v' C) :
    Steps named unused v (ExceptT.adapt g p) (r.mapError g) v' C := by
  intro s hs hu
  obtain ⟨s', hs', hu', hrun⟩ := hp s hs hu
  exact ⟨s', hs', hu', hrun.adapt g⟩

theorem result {r : Except ε α} (hp : Steps named unused v p r v' C) :
    Steps named unused v (FileM.result p : FileM ε' ν (Except ε α)) (.ok r) v' C := by
  intro s hs hu
  obtain ⟨s', hs', hu', hrun⟩ := hp s hs hu
  exact ⟨s', hs', hu', hrun.result⟩

/-- More states a crash may leave. -/
theorem mono {r : Except ε α} (hp : Steps named unused v p r v' C) (h : ∀ w, C w → C' w) :
    Steps named unused v p r v' C' := by
  intro s hs hu
  obtain ⟨s', hs', hu', hrun⟩ := hp s hs hu
  refine ⟨s', hs', hu', Triple.conseq hrun (fun _ h => h) (fun _ _ h => h) ?_⟩
  grind

theorem metadata (hC : C v) : Steps named unused v (FileM.act .metadata e) (.ok ()) v C :=
  fun s hs hu => ⟨s, hs, hu, .act rfl (hs.crash hC) (hs.crash hC) fun _ _ ht => ht.elim⟩

section

variable {x : ν} (hx : x ∈ named)
include hx

theorem stat (hC : C v) :
    Steps named unused v (FileM.stat x : FileM ε ν Bool) (.ok (v x).isSome) v C := by
  intro s hs hu
  have hrun : Undisturbed LosesUnsynced s (FileM.stat x : FileM ε ν Bool) (.ok (s x).isSome) s
      fun t => ∃ w, C w ∧ OnDisk named w t := .stat (hs.crash hC)
  rw [hs x hx, Option.isSome_map] at hrun
  exact ⟨s, hs, hu, hrun⟩

theorem read {bytes : Bytes} (hv : v x = some bytes) (hC : C v) :
    Steps named unused v (FileM.read x e) (.ok bytes) v C := by
  intro s hs hu
  have hfile : s x = some (.durable bytes) := by
    rw [hs x hx, hv]
    rfl
  exact ⟨s, hs, hu, .read hfile (hs.crash hC)⟩

theorem readToString {text : String} (hv : v x = some (utf8Bytes text)) (hC : C v) :
    Steps named unused v (FileM.readToString x e) (.ok text) v C := by
  refine (read hx hv hC).bind ?_
  rw [utf8Text_utf8Bytes]
  exact .pure hC

end

theorem run_remove {x : ν} {bytes : Bytes} (hs : OnDisk named v s) (hx : x ∈ named)
    (hv : v x = some bytes) :
    (FileOp.remove x).run s = (update s x none, .done) := by
  have hfile : s x = some (.durable bytes) := by
    rw [hs x hx, hv]
    rfl
  simp only [FileOp.run, hfile]

section

variable {x : ν} {bytes : Bytes} (hx : x ∈ named) (hunused : x ∉ unused) (hv : v x = some bytes)
  (hv' : update v x none = v') (hC : C v) (hC' : C v')
include hx hunused hv hv' hC hC'

theorem remove : Steps named unused v (FileM.attempt (.remove x) : FileM ε ν FileReply) (.ok .done)
      v' C := by
  intro s hs hu
  have hs' : OnDisk named v' (update s x none) := hv' ▸ hs.update x none
  exact ⟨_, hs', hu.update_of_notMem hunused none, .attempt (run_remove hs hx hv) (hs.crash hC)
    (hs'.crash hC') fun _ _ ht => ht.elim⟩

theorem remove_act : Steps named unused v (FileM.act (.remove x) e) (.ok ()) v' C := by
  intro s hs hu
  have hs' : OnDisk named v' (update s x none) := hv' ▸ hs.update x none
  exact ⟨_, hs', hu.update_of_notMem hunused none, .act (run_remove hs hx hv) (hs.crash hC)
    (hs'.crash hC') fun _ _ ht => ht.elim⟩

end

theorem rename_act {x y : ν} {bytes : Bytes} (hx : x ∈ named) (hxu : x ∉ unused)
    (hyu : y ∉ unused) (hv : v x = some bytes)
    (hv' : update (update v x none) y (some bytes) = v') (hC : C v) (hC' : C v') :
    Steps named unused v (FileM.act (.rename x y) e) (.ok ()) v' C := by
  intro s hs hu
  have hfile : s x = some (.durable bytes) := by
    rw [hs x hx, hv]
    rfl
  have hrun : (FileOp.rename x y).run s =
      (update (update s x none) y (some (.durable bytes)), .done) := by
    simp only [FileOp.run, hfile]
  have hs' : OnDisk named v' (update (update s x none) y (some (.durable bytes))) :=
    hv' ▸ (hs.update x none).update y (some bytes)
  exact ⟨_, hs', (hu.update_of_notMem hxu none).update_of_notMem hyu _, .act hrun (hs.crash hC)
    (hs'.crash hC') fun _ _ ht => ht.elim⟩

/-- Removing a file that is not there. -/
theorem remove_missing {x : ν} (hx : x ∈ named) (hv : v x = none) (hC : C v) :
    Steps named unused v (FileM.attempt (.remove x) : FileM ε ν FileReply)
      (.ok (.failed .notFound)) v C := by
  intro s hs hu
  have hfile : s x = none := by
    rw [hs x hx, hv]
    rfl
  refine ⟨s, hs, hu, .attempt ?_ (hs.crash hC) (hs.crash hC) fun _ _ ht => ht.elim⟩
  simp only [FileOp.run, hfile]

/-- What a run does, read off the semantics. -/
theorem outcome {r : Except ε α} (h : Steps named unused v p r v' C) (hs : OnDisk named v s)
    (hu : Unused unused s) {out : Outcome (Fs ν File) (Except ε α)}
    (hexec : Exec (fileSem (fun _ => False) LosesUnsynced) p.run s out) :
    out.Meets (fun r' t => r' = r ∧ OnDisk named v' t ∧ Unused unused t)
      fun t => ∃ w, C w ∧ OnDisk named w t := by
  obtain ⟨s', hs', hu', hrun⟩ := h s hs hu
  cases out with
  | done r' t =>
    obtain ⟨rfl, rfl⟩ := hrun.done hexec
    exact ⟨rfl, hs', hu'⟩
  | crashed t => exact hrun.crashed hexec

end Steps

end Steps

end Durable
