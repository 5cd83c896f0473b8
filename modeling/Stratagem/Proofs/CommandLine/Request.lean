import Mathlib
import Stratagem.CommandLine.Request
import Stratagem.Proofs.Success

/-!
# What a request says

However the arguments of a command line are written and in whatever order they come, a request that
is made of them is coherent (`Request.Coherent`): what was not given is as at the start, and no two
settings were given that exclude each other. So a request to read a file never holds a dialogue, and
one without a path for a drawing draws nothing.

Taking one flag keeps a request coherent (`Coherent.takeSwitch`, `Coherent.takeValue`), and reading
a command line is taking flags one after the other (`Coherent.take`).
-/

namespace Stratagem.CommandLine

namespace Setting

theorem excludes_symm {s t : Setting} (h : t ∈ s.excludes) : s ∈ t.excludes := by
  cases s <;> cases t <;> first | exact h | exact absurd h (by decide) | decide

theorem not_mem_excludes_self (s : Setting) : s ∉ s.excludes := by
  cases s <;> decide

end Setting

namespace Request

variable {r r' : Request} {s t : Setting}

/-- Whether what a setting sets is as at the start. -/
def Untouched (r : Request) : Setting → Prop
  | .help => True
  | .file => r.file = none
  | .interactive => r.interactive = false
  | .printTokens => r.options.tokens = false
  | .noOutline => r.options.outline = true
  | .printSource => r.options.source = false
  | .printJson => r.options.json = false
  | .drawing => r.options.drawing = .absent
  | .format => r.options.format = .text "svg"

/-- Whether what was not given is untouched, and no setting was given that excludes another one. -/
structure Coherent (r : Request) : Prop where
  untouched : ∀ s, s ∉ r.given → r.Untouched s
  compatible : ∀ s ∈ r.given, ∀ t ∈ s.excludes, t ∉ r.given

/-! ## One flag -/

/-- A setting is given if none was given that it excludes. -/
theorem give_eq_ok (h : r.give s = .ok r') :
    r' = { r with given := s :: r.given } ∧ ∀ t ∈ s.excludes, t ∉ r.given := by
  unfold give at h
  split at h
  next => simp at h
  next hnone =>
    refine ⟨(Except.ok.inj h).symm, fun t ht hgiven => ?_⟩
    exact List.find?_eq_none.mp hnone t ht (by simpa using hgiven)

/-- A flag with a value is given and then sets what it sets. -/
theorem takeValue_eq_ok {value : String} (h : r.takeValue s value = .ok r') :
    ∃ noted, r.give s = .ok noted ∧ r' = noted.assign (keptValue value) s := by
  have hrest : (do let noted ← r.give s; return noted.assign (keptValue value) s) = .ok r' := by
    unfold Request.takeValue at h
    split at h
    next =>
      split at h
      next =>
        obtain ⟨_, hthrow, -⟩ := bind_eq_ok_iff.mp h
        exact absurd hthrow (throw_ne_ok _ _)
      next => exact h
    next => exact h
  obtain ⟨noted, hgive, hassign⟩ := bind_eq_ok_iff.mp hrest
  exact ⟨noted, hgive, (Except.ok.inj hassign).symm⟩

@[simp] theorem switch_given (r : Request) (s : Setting) : (r.switch s).given = r.given := by
  cases s <;> rfl

@[simp] theorem assign_given (r : Request) (value : Option String) (s : Setting) :
    (r.assign value s).given = r.given := by
  cases s <;> rfl

theorem Untouched.withGiven (h : r.Untouched t) (given : List Setting) :
    { r with given := given }.Untouched t := by
  cases t <;> exact h

/-- A flag without a value touches nothing but what it sets. -/
theorem Untouched.switch (h : r.Untouched t) (hne : t ≠ s) : (r.switch s).Untouched t := by
  cases s <;> cases t <;> first | exact h | exact absurd rfl hne

/-- A flag with a value touches nothing but what it sets. -/
theorem Untouched.assign (h : r.Untouched t) (hne : t ≠ s) (value : Option String) :
    (r.assign value s).Untouched t := by
  cases s <;> cases t <;> first | exact h | exact absurd rfl hne

namespace Coherent

/-- A request stays coherent if a setting is given and nothing else is touched. -/
theorem set (hr : r.Coherent) (hs : ∀ t ∈ s.excludes, t ∉ r.given)
    (hgiven : r'.given = s :: r.given)
    (huntouched : ∀ t, t ≠ s → r.Untouched t → r'.Untouched t) : r'.Coherent := by
  constructor
  · intro t ht
    rw [hgiven, List.mem_cons, not_or] at ht
    exact huntouched t ht.1 (hr.untouched t ht.2)
  · rw [hgiven]
    intro u hu t ht hmem
    rcases List.mem_cons.mp hu with rfl | hbefore
    · rcases List.mem_cons.mp hmem with rfl | hmem
      · exact t.not_mem_excludes_self ht
      · exact hs t ht hmem
    · rcases List.mem_cons.mp hmem with rfl | hmem
      · exact hs u (Setting.excludes_symm ht) hbefore
      · exact hr.compatible u hbefore t ht hmem

/-- **Taking a flag without a value** keeps a request coherent. -/
theorem takeSwitch (hr : r.Coherent) (h : r.takeSwitch s = .ok r') : r'.Coherent := by
  obtain ⟨noted, hgive, h⟩ := bind_eq_ok_iff.mp h
  obtain ⟨rfl, hs⟩ := give_eq_ok hgive
  split at h
  next =>
    obtain ⟨_, hthrow, -⟩ := bind_eq_ok_iff.mp h
    exact absurd hthrow (throw_ne_ok _ _)
  next =>
    obtain rfl := Except.ok.inj h
    exact hr.set hs (switch_given _ s) fun t hne ht => (ht.withGiven _).switch hne

/-- **Taking a flag with a value** keeps a request coherent. -/
theorem takeValue {value : String} (hr : r.Coherent) (h : r.takeValue s value = .ok r') :
    r'.Coherent := by
  obtain ⟨noted, hgive, rfl⟩ := takeValue_eq_ok h
  obtain ⟨rfl, hs⟩ := give_eq_ok hgive
  exact hr.set hs (assign_given _ _ s) fun t hne ht => (ht.withGiven _).assign hne _

/-- Taking flags one after the other keeps a request coherent. -/
theorem takeAll {found : List Taking} (hr : r.Coherent) (h : takeAll r found = .ok r') :
    r'.Coherent := by
  induction found generalizing r with
  | nil =>
    obtain rfl := Except.ok.inj h
    exact hr
  | cons taking found ih =>
    obtain ⟨s, value⟩ := taking
    cases value with
    | none =>
      obtain ⟨next, hnext, h⟩ := bind_eq_ok_iff.mp h
      exact ih (hr.takeSwitch hnext) h
    | some value =>
      obtain ⟨next, hnext, h⟩ := bind_eq_ok_iff.mp h
      exact ih (hr.takeValue hnext) h

/-- Arguments that nothing takes do not count. -/
theorem withExtras (hr : r.Coherent) (extras : List String) :
    { r with extras := extras }.Coherent :=
  ⟨fun s hs => by cases s <;> exact hr.untouched _ hs, hr.compatible⟩

/-- **Taking arguments from left to right** keeps a request coherent. -/
theorem take {arguments : List Argument} (hr : r.Coherent) (h : take r arguments = .ok r') :
    r'.Coherent := by
  -- a complaint is no request; a value that a flag takes from the next argument goes with the flag
  fun_induction CommandLine.take r arguments with
  | case1 r =>
    obtain rfl := Except.ok.inj h
    exact hr
  | case2 | case3 | case6 | case8 => exact absurd h (by simp)
  | case4 => exact hr.takeAll h
  | case5 r text =>
    obtain rfl := Except.ok.inj h
    exact hr.withExtras _
  | case7 r text _ _ _ _ _ _ _ _ _ _ ih =>
    obtain ⟨next, hnext, h⟩ := bind_eq_ok_iff.mp h
    exact ih next (hr.takeAll hnext) h
  | case9 r text _ _ _ _ _ _ _ _ _ _ ih =>
    obtain ⟨next, hnext, h⟩ := bind_eq_ok_iff.mp h
    exact ih next (hr.takeAll hnext) h
  | case10 r text _ _ _ _ _ _ _ ih => exact ih (hr.withExtras _) h

end Coherent

theorem coherent_start : ({} : Request).Coherent :=
  ⟨fun s _ => by cases s <;> first | rfl | trivial, fun _ hs => absurd hs List.not_mem_nil⟩

/-- **A request is coherent**, whatever command line it was read from. -/
theorem coherent_of_read {arguments : List String} (h : Request.read arguments = .ok r) :
    r.Coherent := by
  obtain ⟨classified, -, h⟩ := bind_eq_ok_iff.mp h
  obtain ⟨taken, htake, h⟩ := bind_eq_ok_iff.mp h
  have htaken : taken.Coherent := coherent_start.take htake
  split at h
  next =>
    obtain rfl := Except.ok.inj h
    exact htaken
  next => exact absurd h (throw_ne_ok _ _)

end Request

end Stratagem.CommandLine
