import MediaCatalogue.Store.Statements

/-!
# What a write call can end in

A write call stops at the first statement that does not work, so what it does to the tables is
known as soon as it is known for a call all of whose statements work. `Statements.Ends` says this
for every number of working statements at once: the call ends with a result and tables that satisfy
`Q`, or with a fault that satisfies `E`. There is one rule for each way of building a call, and
`Statements.Ends.perform` turns the outcome into one of the whole call.

`Statements.Takes` is about a call that can succeed, and says also how many statements it needs. If
fewer work, the call fails and changes nothing; otherwise it does all that it does
(`Statements.Takes.perform`).
-/

namespace MediaCatalogue

namespace Statements

variable {α β : Type}

/-- On the tables `c`, and whatever number of its statements works, the call ends with a result and
tables in `Q`, or with a fault in `E`. -/
def Ends (call : Statements α) (c : Catalogue) (Q : α → Catalogue → Prop) (E : Fault → Prop) :
    Prop :=
  ∀ working, match call ⟨c, working⟩ with
    | .ok (result, session) => Q result session.catalogue
    | .error fault => E fault

variable {c : Catalogue} {Q : α → Catalogue → Prop} {R : β → Catalogue → Prop} {E : Fault → Prop}

theorem ends_pure {a : α} (h : Q a c) : Ends (pure a) c Q E := fun _ => h

theorem ends_bind {call : Statements α} {next : α → Statements β} (h : Ends call c Q E)
    (hnext : ∀ a c', Q a c' → Ends (next a) c' R E) : Ends (call >>= next) c R E := by
  intro working
  have hw := h working
  simp only [bind, StateT.bind, Except.bind]
  cases hcall : call ⟨c, working⟩ with
  | error fault => simpa only [hcall] using hw
  | ok ended =>
    -- The second call is good for any number of statements that still work.
    obtain ⟨a, session⟩ := ended
    rw [hcall] at hw
    exact hnext a session.catalogue hw session.working

theorem ends_statement {effect : Catalogue → α × Catalogue} (hbroken : E .brokenStatement)
    (h : Q (effect c).1 (effect c).2) : Ends (statement effect) c Q E := by
  intro working
  unfold statement
  split
  · rename_i heq
    split at heq
    · cases heq
    · cases heq
      exact h
  · rename_i heq
    split at heq
    · cases heq
      exact hbroken
    · cases heq

theorem ends_mark {Q : Unit → Catalogue → Prop} (hbroken : E .brokenStatement) (h : Q () c) :
    Ends mark c Q E := by
  unfold mark update
  exact ends_statement hbroken h

/-! ### Calls that begin with a statement -/

theorem ends_statement_bind {effect : Catalogue → α × Catalogue} {next : α → Statements β}
    (hbroken : E .brokenStatement) (h : Ends (next (effect c).1) (effect c).2 R E) :
    Ends (statement effect >>= next) c R E := by
  have hfirst : Ends (statement effect) c (fun a c' => (a, c') = effect c) E :=
    ends_statement hbroken rfl
  refine ends_bind hfirst fun a c' heq => ?_
  rw [← heq] at h
  exact h

theorem ends_update_bind {effect : Catalogue → Catalogue} {next : Unit → Statements β}
    (hbroken : E .brokenStatement) (h : Ends (next ()) (effect c) R E) :
    Ends (update effect >>= next) c R E :=
  ends_statement_bind hbroken h

theorem ends_lift_bind {value : Except Fault α} {next : α → Statements β}
    (herror : ∀ fault, value = .error fault → E fault)
    (hok : ∀ a, value = .ok a → Ends (next a) c R E) :
    Ends ((liftM value : Statements α) >>= next) c R E := by
  intro working
  cases value with
  | error fault => exact herror fault rfl
  | ok a => exact hok a rfl working

theorem ends_lift {value : Except Fault α} (herror : ∀ fault, value = .error fault → E fault)
    (hok : ∀ a, value = .ok a → Q a c) : Ends (liftM value : Statements α) c Q E := by
  intro working
  cases value with
  | error fault => exact herror fault rfl
  | ok a => exact hok a rfl

/-- Writing statements for the items of a list have the effect of all of them, one after the
other. -/
theorem ends_forM {γ : Type} {effect : γ → Catalogue → Catalogue} {items : List γ}
    (hbroken : E .brokenStatement) :
    Ends (items.forM fun item => update (effect item)) c
      (fun _ c' => c' = items.foldl (fun c item => effect item c) c) E := by
  induction items generalizing c with
  | nil => exact ends_pure rfl
  | cons item items ih => exact ends_update_bind hbroken ih

/-! ### Whole calls -/

theorem Ends.imp {call : Statements α} {Q' : α → Catalogue → Prop} (h : Ends call c Q E)
    (hQ : ∀ a c', Q a c' → Q' a c') : Ends call c Q' E := by
  intro working
  have hw := h working
  split at hw
  · exact hQ _ _ hw
  · exact hw

/-- What a call as a whole ends in: a fault leaves the tables as they were. -/
theorem Ends.perform {call : Statements α} (h : Ends call c Q E) (working : Option Nat) :
    (∃ a, (call.perform working c).1 = .ok a ∧ Q a (call.perform working c).2) ∨
      ∃ fault, (call.perform working c).1 = .error fault ∧ E fault ∧
        (call.perform working c).2 = c := by
  have hw := h working
  unfold Statements.perform
  cases hcall : call ⟨c, working⟩ with
  | ok ended =>
    obtain ⟨a, session⟩ := ended
    rw [hcall] at hw
    exact .inl ⟨a, rfl, hw⟩
  | error fault =>
    rw [hcall] at hw
    exact .inr ⟨fault, rfl, hw, rfl⟩

theorem Ends.of_perform_ok {call : Statements α} (h : Ends call c Q E) {working : Option Nat}
    {a : α} {c' : Catalogue} (hok : call.perform working c = (.ok a, c')) : Q a c' := by
  have hends := h.perform working
  rw [hok] at hends
  rcases hends with ⟨_, heq, hQ⟩ | ⟨_, hfault, _⟩
  · cases heq
    exact hQ
  · cases hfault

/-- What a call that failed did not do. -/
theorem Ends.of_perform_error {call : Statements α} (h : Ends call c Q E) {working : Option Nat}
    {fault : Fault} {c' : Catalogue} (herror : call.perform working c = (.error fault, c')) :
    E fault ∧ c' = c := by
  have hends := h.perform working
  rw [herror] at hends
  rcases hends with ⟨_, hok, _⟩ | ⟨_, heq, hE, hc⟩
  · cases hok
  · cases heq
    exact ⟨hE, hc⟩

/-! ### How many statements a call takes -/

/-- Of `n` statements in a row, one does not work. -/
def Breaks (working : Option Nat) (n : Nat) : Prop := ∃ k, working = some k ∧ k < n

instance (working : Option Nat) (n : Nat) : Decidable (Breaks working n) :=
  match working with
  | none => isFalse fun ⟨_, h, _⟩ => by cases h
  | some k => decidable_of_iff (k < n) (by simp [Breaks])

/-- On the tables `c`, the call ends with the result `a` and the tables `c'` after `n` statements,
unless one of these does not work. -/
def Takes (call : Statements α) (c : Catalogue) (n : Nat) (a : α) (c' : Catalogue) : Prop :=
  ∀ working, call ⟨c, working⟩ =
    if Breaks working n then .error .brokenStatement else .ok (a, ⟨c', working.map (· - n)⟩)

section

variable {c' c'' : Catalogue} {n m : Nat} {a : α} {b : β}

theorem not_breaks_none : ¬ Breaks none n := fun ⟨_, h, _⟩ => by cases h

theorem breaks_add_iff {working : Option Nat} :
    Breaks working (m + n) ↔ Breaks working n ∨ Breaks (working.map (· - n)) m := by
  cases working with
  | none => simp [Breaks]
  | some k =>
    simp only [Breaks, Option.some.injEq, exists_eq_left', Option.map_some]
    omega

theorem takes_pure : Takes (pure a) c 0 a c := by
  rintro (_ | k)
  · rfl
  · rw [if_neg (by simp [Breaks])]
    rfl

theorem takes_statement {effect : Catalogue → α × Catalogue} :
    Takes (statement effect) c 1 (effect c).1 (effect c).2 := by
  rintro (_ | _ | k)
  · rfl
  · rw [if_pos ⟨0, rfl, Nat.one_pos⟩]
    rfl
  · rw [if_neg (by simp [Breaks])]
    rfl

theorem takes_update {effect : Catalogue → Catalogue} : Takes (update effect) c 1 () (effect c) :=
  takes_statement

theorem takes_mark : Takes mark c 1 () c := takes_update

theorem Takes.bind {call : Statements α} {next : α → Statements β} (h : Takes call c n a c')
    (hnext : Takes (next a) c' m b c'') : Takes (call >>= next) c (m + n) b c'' := by
  intro working
  simp only [Bind.bind, StateT.bind, Except.bind, h working, breaks_add_iff]
  by_cases hfirst : Breaks working n
  · simp only [hfirst, if_true, true_or]
  · simpa only [hfirst, if_false, false_or, Option.map_map, Function.comp_def, Nat.add_comm m,
      Nat.sub_add_eq] using hnext (working.map (· - n))

theorem Takes.lift_bind {value : Except Fault α} {next : α → Statements β} (h : value = .ok a)
    (hnext : Takes (next a) c m b c') : Takes ((liftM value : Statements α) >>= next) c m b c' := by
  subst h
  exact hnext

theorem takes_forM {γ : Type} {effect : γ → Catalogue → Catalogue} {items : List γ} :
    Takes (items.forM fun item => update (effect item)) c items.length ()
      (items.foldl (fun c item => effect item c) c) := by
  induction items generalizing c with
  | nil => exact takes_pure
  | cons item items ih => exact takes_update.bind ih

/-- **All or nothing.** A call that takes some statements fails and changes nothing if one of them
does not work, and otherwise does all that it does. -/
theorem Takes.perform {call : Statements α} (h : Takes call c n a c') (working : Option Nat) :
    call.perform working c =
      if Breaks working n then (.error .brokenStatement, c) else (.ok a, c') := by
  unfold Statements.perform
  rw [h working]
  by_cases hbreaks : Breaks working n
  · simp only [hbreaks, if_true]
  · simp only [hbreaks, if_false]

end

end Statements

end MediaCatalogue
