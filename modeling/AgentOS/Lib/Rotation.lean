import Mathlib

/-!
# Credential rotation

Subjects are bound to credentials, and a subject may replace its credential by a rotation: the next
credential is prepared beside the current one, activated, and the rotation ends. A rotation that
ends retires the credential that its subject does not carry.

Along every sequence of such steps a subject carries the current credential of its rotation, and
its log is made of complete rotations and of the one that is under way (`Trust.Sound.step`). A
retired credential stays untrusted, and a credential is trusted for one subject only, as long as
the subjects that are bound outside a rotation are bound to fresh credentials
(`Trust.Exclusive.step`).
-/

namespace AgentOS.Lib

inductive RotationPhase
  | prepared
  | activated
  deriving DecidableEq

variable {N F : Type}

/-- The replacement of a credential. -/
structure Rotation (F : Type) where
  phase : RotationPhase
  (previous next : F)

namespace Rotation

/-- The credential that the subject carries. -/
def current (r : Rotation F) : F :=
  match r.phase with
  | .prepared => r.previous
  | .activated => r.next

/-- The credential that the end of the rotation retires. -/
def fading (r : Rotation F) : F :=
  match r.phase with
  | .prepared => r.next
  | .activated => r.previous

/-- The two credentials of the rotation. -/
def Names (r : Rotation F) (f : F) : Prop := f = r.previous ∨ f = r.next

theorem names_iff (r : Rotation F) (f : F) : r.Names f ↔ f = r.current ∨ f = r.fading := by
  cases hp : r.phase <;> simp [Names, current, fading, hp, or_comm]

theorem current_ne_fading {r : Rotation F} (h : r.previous ≠ r.next) : r.current ≠ r.fading := by
  cases hp : r.phase with
  | prepared => simpa [current, fading, hp] using h
  | activated => simpa [current, fading, hp] using h.symm

end Rotation

/-- A move of a rotation, from one phase to another; outside a rotation there is no phase. -/
abbrev RotationMove := Option RotationPhase × Option RotationPhase

/-- A logged move. -/
structure RotationEntry (N F : Type) where
  subject : N
  move : RotationMove
  (previous next : F)

/-- The credential that a logged move retires. -/
def RotationEntry.retires (entry : RotationEntry N F) : Option F :=
  match entry.move with
  | (some .prepared, none) => some entry.next
  | (some .activated, none) => some entry.previous
  | _ => none

/-- The moves of one complete rotation. -/
inductive RotationChain : List RotationMove → Prop
  | withdrawn : RotationChain [(none, some .prepared), (some .prepared, none)]
  | completed : RotationChain
      [(none, some .prepared), (some .prepared, some .activated), (some .activated, none)]

/-- The moves of a rotation that is under way. -/
def openChain : Option RotationPhase → List RotationMove
  | none => []
  | some .prepared => [(none, some .prepared)]
  | some .activated => [(none, some .prepared), (some .prepared, some .activated)]

theorem rotationChain_of_open (ph : RotationPhase) :
    RotationChain (openChain (some ph) ++ [(some ph, none)]) := by
  cases ph with
  | prepared => exact .withdrawn
  | activated => exact .completed

/-- The moves are complete rotations, followed by the one that is under way. -/
def Chains (moves : List RotationMove) (phase : Option RotationPhase) : Prop :=
  ∃ chains : List (List RotationMove), (∀ chain ∈ chains, RotationChain chain) ∧
    moves = chains.flatten ++ openChain phase

namespace Chains

variable {moves : List RotationMove}

theorem prepare (h : Chains moves none) :
    Chains (moves ++ [(none, some .prepared)]) (some .prepared) := by
  obtain ⟨chains, hc, rfl⟩ := h
  exact ⟨chains, hc, by simp [openChain]⟩

theorem activate (h : Chains moves (some .prepared)) :
    Chains (moves ++ [(some .prepared, some .activated)]) (some .activated) := by
  obtain ⟨chains, hc, rfl⟩ := h
  exact ⟨chains, hc, by simp [openChain]⟩

theorem finish {ph : RotationPhase} (h : Chains moves (some ph)) :
    Chains (moves ++ [(some ph, none)]) none := by
  obtain ⟨chains, hch, rfl⟩ := h
  refine ⟨chains ++ [openChain (some ph) ++ [(some ph, none)]], ?_, ?_⟩
  · intro chain hc
    rcases List.mem_append.1 hc with hc | hc
    · exact hch chain hc
    · rw [List.mem_singleton.1 hc]
      exact rotationChain_of_open ph
  · simp [openChain]

end Chains

/-! ## Steps -/

/-- The credentials of all subjects: those they are bound to, the rotations that are under way, the
log of all moves, and the credentials that were ever named. -/
structure Trust (N F : Type) where
  bound : N → Option F
  rotation : N → Option (Rotation F)
  log : List (RotationEntry N F)
  seen : F → Prop

variable [DecidableEq N]

/-- One change. The credentials that were named may grow with every change. -/
inductive TrustStep (t : Trust N F) : Trust N F → Prop
  | keep {seen' : F → Prop} (grows : ∀ f, t.seen f → seen' f) :
      TrustStep t { t with seen := seen' }
  | bind (n : N) (credential : Option F) {seen' : F → Prop} (grows : ∀ f, t.seen f → seen' f)
      (idle : t.rotation n = none)
      (apart : ∀ f m, credential = some f → m ≠ n → t.bound m ≠ some f)
      (files : ∀ f, credential = some f → seen' f) :
      TrustStep t { t with bound := Function.update t.bound n credential, seen := seen' }
  | prepare (n : N) (previous next : F) {seen' : F → Prop} (grows : ∀ f, t.seen f → seen' f)
      (idle : t.rotation n = none) (carries : t.bound n = some previous)
      (distinct : previous ≠ next) (unseen : ¬ t.seen next) (files : seen' next) :
      TrustStep t { t with
        rotation := Function.update t.rotation n (some ⟨.prepared, previous, next⟩)
        log := t.log ++ [⟨n, (none, some .prepared), previous, next⟩]
        seen := seen' }
  | activate (n : N) (r : Rotation F) {seen' : F → Prop} (grows : ∀ f, t.seen f → seen' f)
      (found : t.rotation n = some r) (phase : r.phase = .prepared) :
      TrustStep t
        { bound := Function.update t.bound n (some r.next)
          rotation := Function.update t.rotation n (some ⟨.activated, r.previous, r.next⟩)
          log := t.log ++ [⟨n, (some .prepared, some .activated), r.previous, r.next⟩]
          seen := seen' }
  | finish (n : N) (r : Rotation F) {seen' : F → Prop} (grows : ∀ f, t.seen f → seen' f)
      (found : t.rotation n = some r) :
      TrustStep t { t with
        rotation := Function.update t.rotation n none
        log := t.log ++ [⟨n, (some r.phase, none), r.previous, r.next⟩]
        seen := seen' }

namespace Trust

variable {t t' : Trust N F}

/-- The moves of the rotations of one subject. -/
def moves (t : Trust N F) (n : N) : List RotationMove :=
  (t.log.filter fun entry => entry.subject = n).map RotationEntry.move

/-- A retired credential. -/
def Retired (t : Trust N F) (f : F) : Prop := ∃ entry ∈ t.log, entry.retires = some f

/-- A credential that a subject carries or that a rotation of it names. -/
def Names (t : Trust N F) (n : N) (f : F) : Prop :=
  t.bound n = some f ∨ ∃ r, t.rotation n = some r ∧ r.Names f

/-- What holds of one subject whatever the subjects are bound to. -/
structure SoundAt (t : Trust N F) (n : N) : Prop where
  carries : ∀ r, t.rotation n = some r → t.bound n = some r.current
  distinct : ∀ r, t.rotation n = some r → r.previous ≠ r.next
  chains : Chains (t.moves n) ((t.rotation n).map Rotation.phase)
  seen : ∀ f, t.Names n f → t.seen f

/-- What holds of rotations whatever the subjects are bound to. -/
structure Sound (t : Trust N F) : Prop where
  subject : ∀ n, t.SoundAt n
  retired : ∀ f, t.Retired f → t.seen f

/-- A credential is named for one subject only, and a retired one for none. -/
structure Exclusive (t : Trust N F) : Prop where
  alone : ∀ n m f, t.Names n f → t.Names m f → n = m
  untrusted : ∀ n f, t.Retired f → ¬ t.Names n f

/-- A credential that is neither retired nor part of the rotation of another subject. -/
structure Fresh (t : Trust N F) (n : N) (f : F) : Prop where
  unretired : ¬ t.Retired f
  unprepared : ∀ m r, m ≠ n → t.rotation m = some r → ¬ r.Names f

omit [DecidableEq N] in
theorem retired_snoc {e : RotationEntry N F} (hlog : t'.log = t.log ++ [e]) (f : F) :
    t'.Retired f ↔ t.Retired f ∨ e.retires = some f := by
  simp [Retired, hlog, or_and_right, exists_or]

omit [DecidableEq N] in
theorem retires_finish (n : N) (r : Rotation F) :
    RotationEntry.retires ⟨n, (some r.phase, none), r.previous, r.next⟩ = some r.fading := by
  cases hp : r.phase <;> simp [RotationEntry.retires, Rotation.fading, hp]

theorem moves_snoc {e : RotationEntry N F} (hlog : t'.log = t.log ++ [e]) (n : N) :
    t'.moves n = if n = e.subject then t.moves n ++ [e.move] else t.moves n := by
  split
  · next heq => simp [moves, hlog, heq]
  · next hne => simp [moves, hlog, Ne.symm hne]

/-- A step that leaves a subject alone keeps what holds of it. -/
theorem SoundAt.congr {n : N} (h : t.SoundAt n) (hb : t'.bound n = t.bound n)
    (hro : t'.rotation n = t.rotation n) (hm : t'.moves n = t.moves n)
    (hg : ∀ f, t.seen f → t'.seen f) : t'.SoundAt n where
  carries r hr := by
    rw [hb]
    exact h.carries r (hro ▸ hr)
  distinct r hr := h.distinct r (hro ▸ hr)
  chains := by
    rw [hm, hro]
    exact h.chains
  seen f hf := by
    rw [Names, hb, hro] at hf
    exact hg f (h.seen f hf)

/-- The subject of a rotation that moves. -/
theorem SoundAt.rotated {n : N} {r : Rotation F} (hr : t'.rotation n = some r)
    (hb : t'.bound n = some r.current) (hd : r.previous ≠ r.next)
    (hc : Chains (t'.moves n) (some r.phase)) (hseen : ∀ f, r.Names f → t'.seen f) :
    t'.SoundAt n where
  carries r' hr' := by
    obtain rfl := Option.some.inj (hr.symm.trans hr')
    exact hb
  distinct r' hr' := by
    obtain rfl := Option.some.inj (hr.symm.trans hr')
    exact hd
  chains := by
    rw [hr]
    exact hc
  seen f hf := by
    rcases hf with hf | ⟨r', hr', hf⟩
    · rw [hb] at hf
      obtain rfl := Option.some.inj hf
      exact hseen _ ((r.names_iff _).2 (.inl rfl))
    · obtain rfl := Option.some.inj (hr.symm.trans hr')
      exact hseen f hf

/-- A subject without a rotation. -/
theorem SoundAt.idle {n : N} (hro : t'.rotation n = none)
    (hc : Chains (t'.moves n) none) (hseen : ∀ f, t'.bound n = some f → t'.seen f) :
    t'.SoundAt n where
  carries r hr := absurd (hro.symm.trans hr) (by simp)
  distinct r hr := absurd (hro.symm.trans hr) (by simp)
  chains := by
    rw [hro]
    exact hc
  seen f hf := by
    rcases hf with hf | ⟨r, hr, -⟩
    · exact hseen f hf
    · exact absurd (hro.symm.trans hr) (by simp)

/-- Every step keeps what holds of rotations. -/
theorem Sound.step (h : t.Sound) (hstep : TrustStep t t') : t'.Sound := by
  cases hstep with
  | keep hg =>
    exact ⟨fun m => (h.subject m).congr rfl rfl rfl hg, fun f hf => hg f (h.retired f hf)⟩
  | bind n credential hg hidle _ hfi =>
    refine ⟨fun m => ?_, fun f hf => hg f (h.retired f hf)⟩
    by_cases hm : m = n
    · subst hm
      have hc := (h.subject m).chains
      rw [hidle] at hc
      refine .idle hidle hc fun f hf => hfi f ?_
      simpa using hf
    · exact (h.subject m).congr (Function.update_of_ne hm _ _) rfl rfl hg
  | prepare n prev next hg hidle hca hd _ hfi =>
    refine ⟨fun m => ?_, fun f hf => ?_⟩
    · by_cases hm : m = n
      · subst hm
        have hc := (h.subject m).chains
        rw [hidle] at hc
        refine .rotated (Function.update_self _ _ _) hca hd ?_ ?_
        · rw [moves_snoc rfl, if_pos rfl]
          exact hc.prepare
        · rintro f (rfl | rfl)
          · exact hg _ ((h.subject m).seen _ (.inl hca))
          · exact hfi
      · refine (h.subject m).congr rfl (Function.update_of_ne hm _ _) ?_ hg
        rw [moves_snoc rfl, if_neg hm]
    · exact hg f (h.retired f (((retired_snoc rfl f).1 hf).resolve_right nofun))
  | activate n r hg hfo hp =>
    have hn : ∀ f, r.Names f → t.seen f :=
      fun f hf => (h.subject n).seen f (.inr ⟨r, hfo, hf⟩)
    refine ⟨fun m => ?_, fun f hf => ?_⟩
    · by_cases hm : m = n
      · subst hm
        have hc := (h.subject m).chains
        rw [hfo, Option.map_some, hp] at hc
        refine .rotated (Function.update_self _ _ _) (Function.update_self _ _ _)
          ((h.subject m).distinct r hfo) ?_ fun f hf => hg f (hn f hf)
        rw [moves_snoc rfl, if_pos rfl]
        exact hc.activate
      · refine (h.subject m).congr (Function.update_of_ne hm _ _)
          (Function.update_of_ne hm _ _) ?_ hg
        rw [moves_snoc rfl, if_neg hm]
    · exact hg f (h.retired f (((retired_snoc rfl f).1 hf).resolve_right nofun))
  | finish n r hg hfo =>
    have hn : ∀ f, t.Names n f → t.seen f := (h.subject n).seen
    refine ⟨fun m => ?_, fun f hf => ?_⟩
    · by_cases hm : m = n
      · subst hm
        have hc := (h.subject m).chains
        rw [hfo] at hc
        refine .idle (Function.update_self _ _ _) ?_ fun f hf => hg f (hn f (.inl hf))
        rw [moves_snoc rfl, if_pos rfl]
        exact hc.finish
      · refine (h.subject m).congr rfl (Function.update_of_ne hm _ _) ?_ hg
        rw [moves_snoc rfl, if_neg hm]
    · rcases (retired_snoc rfl f).1 hf with hold | hnew
      · exact hg f (h.retired f hold)
      · rw [retires_finish] at hnew
        obtain rfl := Option.some.inj hnew
        exact hg _ (hn _ (.inr ⟨r, hfo, (r.names_iff _).2 (.inr rfl)⟩))

/-! ## Retired credentials -/

omit [DecidableEq N] in
/-- A step that names no new credential and retires none keeps credentials apart. -/
theorem Exclusive.mono (h : t.Exclusive) (hna : ∀ n f, t'.Names n f → t.Names n f)
    (hr : ∀ f, t'.Retired f → t.Retired f) : t'.Exclusive where
  alone n m f hn hm := h.alone n m f (hna n f hn) (hna m f hm)
  untrusted n f hf hn := h.untrusted n f (hr f hf) (hna n f hn)

omit [DecidableEq N] in
/-- A credential that is not retired and that no other subject names can be given to a subject. -/
theorem Exclusive.add (h : t.Exclusive) (n : N) {f : F}
    (hn : ∀ m g, t'.Names m g → t.Names m g ∨ m = n ∧ g = f) (hr : ∀ g, t'.Retired g → t.Retired g)
    (hlive : ¬ t.Retired f) (ha : ∀ m, m ≠ n → ¬ t.Names m f) : t'.Exclusive := by
  have hown : ∀ m, t.Names m f → m = n := fun m hm => by_contra fun hne => ha m hne hm
  refine ⟨fun m m' g hm hm' => ?_, fun m g hg hm => ?_⟩
  · rcases hn m g hm with hold | ⟨rfl, rfl⟩
    · rcases hn m' g hm' with hold' | ⟨rfl, rfl⟩
      · exact h.alone m m' g hold hold'
      · exact hown m hold
    · rcases hn m' g hm' with hold' | ⟨rfl, -⟩
      · exact (hown m' hold').symm
      · rfl
  · rcases hn m g hm with hold | ⟨rfl, rfl⟩
    · exact h.untrusted m g (hr g hg) hold
    · exact hlive (hr g hg)

/-- A step keeps credentials apart, and retired ones untrusted, if a subject without a rotation is
only bound to a fresh credential. -/
theorem Exclusive.step (h : t.Exclusive) (hs : t.Sound) (hstep : TrustStep t t')
    (hfr : ∀ n f, t.rotation n = none → t'.bound n = some f → t.bound n ≠ some f → t.Fresh n f) :
    t'.Exclusive := by
  cases hstep with
  | keep _ => exact h.mono (fun _ _ hn => hn) fun _ hf => hf
  | bind n credential _ hidle ha _ =>
    -- the subject names its new credential only, the others what they named before
    have hnm : ∀ m f, Names { t with bound := Function.update t.bound n credential } m f →
        t.Names m f ∨ m = n ∧ credential = some f := by
      intro m f hm
      by_cases heq : m = n
      · subst heq
        rcases hm with hm | ⟨r, hr, -⟩
        · exact .inr ⟨rfl, by simpa using hm⟩
        · exact absurd (hidle.symm.trans hr) (by simp)
      · rcases hm with hm | hm
        · simp only [Function.update_of_ne heq] at hm
          exact .inl (.inl hm)
        · exact .inl (.inr hm)
    cases credential with
    | none =>
      refine h.mono (fun m f hm => ?_) fun _ hf => hf
      rcases hnm m f hm with hold | ⟨-, hf⟩
      · exact hold
      · cases hf
    | some f =>
      by_cases hsame : t.bound n = some f
      · refine h.mono (fun m g hm => ?_) fun _ hf => hf
        rcases hnm m g hm with hold | ⟨rfl, hg⟩
        · exact hold
        · exact .inl (hsame.trans hg)
      · have hf := hfr n f hidle (Function.update_self _ _ _) hsame
        refine h.add n (f := f) (fun m g hm => ?_) (fun _ hg => hg) hf.unretired ?_
        · exact (hnm m g hm).imp_right fun ⟨hm, hg⟩ => ⟨hm, (Option.some.inj hg).symm⟩
        · rintro m hm (hb | ⟨r, hr, hna⟩)
          · exact ha f m rfl hm hb
          · exact hf.unprepared m r hm hr hna
  | prepare n prev next _ hidle hca _ hu _ =>
    have hnew : ∀ m, ¬ t.Names m next := fun m hm => hu ((hs.subject m).seen next hm)
    refine h.add n (f := next) (fun m g hm => ?_) (fun g hg => ?_)
      (fun hg => hu (hs.retired next hg)) fun m _ => hnew m
    · rcases hm with hm | ⟨r, hr, hna⟩
      · exact .inl (.inl hm)
      · by_cases heq : m = n
        · subst heq
          simp only [Function.update_self, Option.some.injEq] at hr
          subst hr
          rcases hna with rfl | rfl
          · exact .inl (.inl hca)
          · exact .inr ⟨rfl, rfl⟩
        · simp only [Function.update_of_ne heq] at hr
          exact .inl (.inr ⟨r, hr, hna⟩)
    · exact ((retired_snoc rfl g).1 hg).resolve_right nofun
  | activate n r _ hfo hp =>
    refine h.mono (fun m g hm => ?_) fun g hg => ?_
    · by_cases heq : m = n
      · subst heq
        rcases hm with hm | ⟨r', hr', hna⟩
        · simp only [Function.update_self, Option.some.injEq] at hm
          exact .inr ⟨r, hfo, .inr hm.symm⟩
        · simp only [Function.update_self, Option.some.injEq] at hr'
          subst hr'
          exact .inr ⟨r, hfo, hna⟩
      · simpa only [Names, Function.update_of_ne heq] using hm
    · exact ((retired_snoc rfl g).1 hg).resolve_right nofun
  | finish n r _ hfo =>
    have hnm : ∀ m g, Names { t with rotation := Function.update t.rotation n none } m g →
        t.Names m g ∧ (m = n → t.bound n = some g) := by
      rintro m g (hm | ⟨r', hr', hna⟩)
      · exact ⟨.inl hm, fun heq => heq ▸ hm⟩
      · by_cases heq : m = n
        · subst heq
          simp only [Function.update_self, reduceCtorEq] at hr'
        · simp only [Function.update_of_ne heq] at hr'
          exact ⟨.inr ⟨r', hr', hna⟩, fun h => absurd h heq⟩
    refine ⟨fun m m' g hm hm' => h.alone m m' g (hnm m g hm).1 (hnm m' g hm').1,
      fun m g hg hm => ?_⟩
    obtain ⟨hold, hown⟩ := hnm m g hm
    rcases (retired_snoc rfl g).1 hg with hgone | hnew
    · exact h.untrusted m g hgone hold
    · -- the subject names the retired credential, so nobody else does, and it carries another
      rw [retires_finish] at hnew
      obtain rfl := Option.some.inj hnew
      have hfa : t.Names n r.fading := .inr ⟨r, hfo, (r.names_iff _).2 (.inr rfl)⟩
      have hc := (hs.subject n).carries r hfo
      rw [hown (h.alone m n _ hold hfa)] at hc
      exact (Rotation.current_ne_fading ((hs.subject n).distinct r hfo)) (Option.some.inj hc).symm

/-- The log only grows. -/
theorem log_of_step (hstep : TrustStep t t') : t.log <+: t'.log := by
  cases hstep with
  | keep _ | bind _ _ _ _ _ _ => exact List.prefix_rfl
  | prepare _ _ _ _ _ _ _ _ _ | activate _ _ _ _ _ | finish _ _ _ _ => exact List.prefix_append _ _

/-- A rotation that ends retires a credential. -/
theorem retired_of_step (hstep : TrustStep t t') {n : N} {r : Rotation F}
    (hf : t.rotation n = some r) (he : t'.rotation n = none) : t'.Retired r.fading := by
  cases hstep with
  | keep _ | bind _ _ _ _ _ _ => exact absurd (hf.symm.trans he) (by simp)
  | prepare m _ _ _ _ _ _ _ _ | activate m _ _ _ _ => by_cases heq : n = m <;> simp_all
  | finish m r' _ hf' =>
    by_cases heq : n = m
    · subst heq
      obtain rfl := Option.some.inj (hf.symm.trans hf')
      exact (retired_snoc rfl _).2 (.inr (retires_finish n r))
    · simp only [Function.update_of_ne heq, hf, reduceCtorEq] at he

end Trust

end AgentOS.Lib
