import Mathlib.Data.List.Induction
import PalChecker.Typing.SymbolTable

/-!
# Scopes by their history

What a table answers can be told from what was done to it. A scope is open until what is done behind its
entry exits it, and of the symbols that are inserted in it under one name it keeps the first.
-/

namespace PalChecker

namespace SymbolTable

/-! ## Operations -/

inductive Operation where
  | enter
  | exit
  | insert (s : Symbol)
  | lookup (name : String)
  deriving DecidableEq, Repr

/-- A symbol that is not added changes nothing, and neither does a lookup. -/
def perform (t : SymbolTable) : Operation → SymbolTable
  | .enter => t.enter
  | .exit => t.exit
  | .insert s =>
    match t.insert s with
    | .added u => u
    | .taken _ | .unscoped => t
  | .lookup _ => t

def performAll (ops : List Operation) (t : SymbolTable) : SymbolTable := ops.foldl perform t

/-- What a new table has become. -/
def ofHistory (history : List Operation) : SymbolTable := empty.performAll history

theorem performAll_append (ops ops' : List Operation) (t : SymbolTable) :
    t.performAll (ops ++ ops') = (t.performAll ops).performAll ops' := List.foldl_append

theorem ofHistory_concat (history : List Operation) (op : Operation) :
    ofHistory (history ++ [op]) = (ofHistory history).perform op := performAll_append ..

/-- Of the symbols that are inserted under one name a scope keeps the first. -/
def receive (s : Symbol) (scope : Scope) : Scope :=
  match scope.find? s.name with
  | some _ => scope
  | none => s :: scope

theorem find?_receive (s : Symbol) (scope : Scope) (name : String) :
    (receive s scope).find? name = (scope.find? name).or (Scope.find? name [s]) := by
  unfold receive
  split
  next holder hfind =>
    by_cases hname : s.name = name
    · rw [← hname, hfind, Option.some_or]
    · simp [Scope.find?, hname]
  next hfind =>
    by_cases hname : s.name = name
    · rw [← hname, hfind, Option.none_or]
      simp [Scope.find?]
    · simp [Scope.find?, hname]

theorem scopes_perform_insert (s : Symbol) (t : SymbolTable) :
    (t.perform (.insert s)).scopes = t.scopes.modifyHead (receive s) := by
  obtain ⟨_ | ⟨scope, outer⟩⟩ := t
  · rfl
  · cases hfind : scope.find? s.name <;> simp [perform, insert, receive, hfind]

theorem depth_perform_insert (s : Symbol) (t : SymbolTable) : (t.perform (.insert s)).depth = t.depth := by
  rw [depth, scopes_perform_insert, List.length_modifyHead, depth]

namespace Operation

/-- How many of the scopes are open that were entered behind some point, if `depth` of them were and then
`ops` are done. Nothing if `ops` exit more. -/
def depthAfter? : Nat → List Operation → Option Nat
  | depth, [] => some depth
  | depth, .enter :: rest => depthAfter? (depth + 1) rest
  | 0, .exit :: _ => none
  | depth + 1, .exit :: rest => depthAfter? depth rest
  | depth, .insert _ :: rest | depth, .lookup _ :: rest => depthAfter? depth rest

/-- The symbols that `ops` insert outside of all scopes that were entered behind some point, `depth` of
which are open. -/
def insertedBelow : Nat → List Operation → List Symbol
  | _, [] => []
  | depth, .enter :: rest => insertedBelow (depth + 1) rest
  | depth, .exit :: rest => insertedBelow (depth - 1) rest
  | 0, .insert s :: rest => s :: insertedBelow 0 rest
  | depth + 1, .insert _ :: rest => insertedBelow (depth + 1) rest
  | depth, .lookup _ :: rest => insertedBelow depth rest

/-- The symbol first inserted under `name`, added or not, in a scope behind whose entry `since` was done. -/
def firstReceived? (name : String) (since : List Operation) : Option Symbol :=
  (insertedBelow 0 since).find? (·.name = name)

/-- Exits as many scopes as it enters, and none that it has not entered. -/
def Balanced (ops : List Operation) : Prop := depthAfter? 0 ops = some 0

theorem depthAfter?_append (depth : Nat) (ops ops' : List Operation) :
    depthAfter? depth (ops ++ ops') = (depthAfter? depth ops).bind (depthAfter? · ops') := by
  fun_induction depthAfter? depth ops <;> simp_all [depthAfter?]

theorem depthAfter?_add {depth depth' : Nat} {ops : List Operation} (below : Nat)
    (h : depthAfter? depth ops = some depth') :
    depthAfter? (depth + below) ops = some (depth' + below) := by
  fun_induction depthAfter? depth ops <;> simp_all [depthAfter?, Nat.add_right_comm]

end Operation

open Operation

/-! ## What operations leave of a scope -/

theorem drop_scopes_performAll {depth depth' : Nat} {ops : List Operation}
    (h : depthAfter? depth ops = some depth') (t : SymbolTable) :
    (t.performAll ops).scopes.drop (depth' + 1) = t.scopes.drop (depth + 1) := by
  fun_induction depthAfter? depth ops generalizing t with
  | case1 depth =>
    cases h
    rfl
  | case2 depth rest ih => exact ih h t.enter
  | case3 => cases h
  | case4 depth rest ih => exact (ih h t.exit).trans List.drop_tail
  | case5 depth s rest ih =>
    -- An insertion changes the head, which is dropped.
    refine (ih h (t.perform (.insert s))).trans ?_
    rw [scopes_perform_insert, List.drop_modifyHead_of_pos (Nat.succ_pos depth)]
  | case6 depth name rest ih => exact ih h t

/-- A scope that stays open holds what it held, and behind that what it received. -/
theorem exists_scope_performAll {depth depth' : Nat} {ops : List Operation}
    (h : depthAfter? depth ops = some depth') {t : SymbolTable} {scope : Scope}
    (hscope : t.scopes[depth]? = some scope) :
    ∃ scope' : Scope, (t.performAll ops).scopes[depth']? = some scope' ∧
      ∀ name, scope'.find? name =
        (scope.find? name).or ((insertedBelow depth ops).find? (·.name = name)) := by
  fun_induction depthAfter? depth ops generalizing t scope with
  | case1 depth =>
    cases h
    exact ⟨scope, hscope, fun name => by simp [insertedBelow]⟩
  | case2 depth rest ih => exact ih h (t := t.enter) hscope
  | case3 => cases h
  | case4 depth rest ih => exact ih h (t := t.exit) (by simpa [exit] using hscope)
  | case5 depth s rest ih =>
    -- Only what is inserted while no scope is open further in gets into this one.
    cases depth with
    | zero =>
      have hhead : (t.perform (.insert s)).scopes[0]? = some (receive s scope) := by
        rw [scopes_perform_insert, List.getElem?_modifyHead, if_pos rfl, hscope, Option.map_some]
      obtain ⟨scope', hscope', hfind⟩ := ih h hhead
      refine ⟨scope', hscope', fun name => ?_⟩
      rw [hfind, find?_receive, Option.or_assoc]
      exact congrArg _ List.find?_append.symm
    | succ depth =>
      refine ih h (t := t.perform (.insert s)) ?_
      rw [scopes_perform_insert, List.getElem?_modifyHead_succ, hscope]
  | case6 depth name rest ih => exact ih h (t := t) hscope

/-! ## Open scopes -/

/-- A scope was entered in the course of `history`, `since` was done behind that and has not exited it. -/
def IsOpen (history since : List Operation) : Prop :=
  .enter :: since <:+ history ∧ (depthAfter? 0 since).isSome

/-- What was entered behind this scope is exited. -/
def IsCurrent (history since : List Operation) : Prop := .enter :: since <:+ history ∧ Balanced since

/-- `depth` of the scopes that were entered behind this one are open. -/
def IsOpenBelow (depth : Nat) (history since : List Operation) : Prop :=
  .enter :: since <:+ history ∧ depthAfter? 0 since = some depth

theorem isOpen_iff {history since : List Operation} :
    IsOpen history since ↔ ∃ depth, IsOpenBelow depth history since := by
  simp [IsOpen, IsOpenBelow, Option.isSome_iff_exists]

section Order

variable {depth depth' : Nat} {history since since' : List Operation}

theorem IsOpenBelow.lt (h : IsOpenBelow depth history since) (h' : IsOpenBelow depth' history since')
    (hlater : since.length < since'.length) : depth < depth' := by
  have hsuffix : .enter :: since <:+ .enter :: since' :=
    List.suffix_of_suffix_length_le h.1 h'.1 (by simpa using Nat.le_of_lt hlater)
  -- The later entry is among what was done since the earlier one.
  obtain heq | ⟨before, rfl⟩ := List.suffix_cons_iff.mp hsuffix
  · exact absurd (congrArg List.length heq) (by simp [Nat.ne_of_lt hlater])
  · have hafter := h'.2
    rw [depthAfter?_append] at hafter
    obtain ⟨between, -, hsince⟩ := Option.bind_eq_some_iff.mp hafter
    have hadd := depthAfter?_add (between + 1) h.2
    rw [Nat.zero_add] at hadd
    have hdepth : depth + (between + 1) = depth' := Option.some.inj (hadd.symm.trans hsince)
    omega

theorem IsOpenBelow.lt_iff (h : IsOpenBelow depth history since) (h' : IsOpenBelow depth' history since') :
    depth < depth' ↔ since.length < since'.length := by
  refine ⟨fun hlt => ?_, h.lt h'⟩
  by_contra hnot
  obtain hlater | hsame := Nat.lt_or_eq_of_le (Nat.not_lt.mp hnot)
  · exact absurd hlt (Nat.lt_asymm (h'.lt h hlater))
  · have hsuffix := List.suffix_of_suffix_length_le h'.1 h.1 (by simp [hsame])
    have heq : since' = since := (List.cons.inj (hsuffix.eq_of_length (by simp [hsame]))).2
    subst heq
    exact absurd (Option.some.inj (h.2.symm.trans h'.2)) (Nat.ne_of_lt hlt)

end Order

theorem exists_scope_of_isOpenBelow {depth : Nat} {history since : List Operation}
    (h : IsOpenBelow depth history since) :
    ∃ scope : Scope, (ofHistory history).scopes[depth]? = some scope ∧
      ∀ name, scope.find? name = firstReceived? name since := by
  obtain ⟨⟨before, rfl⟩, hdepth⟩ := h
  rw [ofHistory, performAll_append]
  have hentered : (ofHistory before).enter.scopes[0]? = some [] := rfl
  exact exists_scope_performAll hdepth hentered

theorem IsOpenBelow.concat {depth depth' : Nat} {history since : List Operation} {op : Operation}
    (h : IsOpenBelow depth history since) (hop : depthAfter? depth [op] = some depth') :
    IsOpenBelow depth' (history ++ [op]) (since ++ [op]) := by
  obtain ⟨⟨before, rfl⟩, hdepth⟩ := h
  refine ⟨⟨before, by simp⟩, ?_⟩
  rw [depthAfter?_append, hdepth, Option.bind_some, hop]

theorem exists_isOpenBelow (history : List Operation) {depth : Nat}
    (h : depth < (ofHistory history).depth) : ∃ since, IsOpenBelow depth history since := by
  induction history using List.reverseRecOn generalizing depth with
  | nil => exact absurd h (Nat.not_lt_zero depth)
  | append_singleton history op ih =>
    rw [ofHistory_concat] at h
    cases op with
    | enter =>
      cases depth with
      -- The scope that was just entered.
      | zero => exact ⟨[], ⟨history, rfl⟩, rfl⟩
      | succ depth =>
        obtain ⟨since, hopen⟩ := ih (Nat.lt_of_succ_lt_succ h)
        exact ⟨_, hopen.concat rfl⟩
    | exit =>
      -- What is open behind the exit was one scope further out before.
      rw [perform, depth_exit] at h
      obtain ⟨since, hopen⟩ := ih (Nat.add_lt_of_lt_sub h)
      exact ⟨_, hopen.concat rfl⟩
    | insert s =>
      rw [depth_perform_insert] at h
      obtain ⟨since, hopen⟩ := ih h
      exact ⟨_, hopen.concat (by simp [depthAfter?])⟩
    | lookup name =>
      obtain ⟨since, hopen⟩ := ih h
      exact ⟨_, hopen.concat (by simp [depthAfter?])⟩

theorem exists_isOpenBelow_of_scope {history : List Operation} {depth : Nat} {scope : Scope}
    (h : (ofHistory history).scopes[depth]? = some scope) :
    ∃ since, IsOpenBelow depth history since ∧ ∀ name, scope.find? name = firstReceived? name since := by
  obtain ⟨since, hopen⟩ := exists_isOpenBelow history (List.getElem?_eq_some_iff.mp h).1
  obtain ⟨scope', hscope, hfind⟩ := exists_scope_of_isOpenBelow hopen
  obtain rfl : scope' = scope := Option.some.inj (hscope.symm.trans h)
  exact ⟨since, hopen, hfind⟩

/-! ## What a table answers -/

variable (history : List Operation)

theorem lookup?_eq_some_iff_history (name : String) (s : Symbol) :
    (ofHistory history).lookup? name = some s ↔
      ∃ since, IsOpen history since ∧ firstReceived? name since = some s ∧
        ∀ inner, IsOpen history inner → inner.length < since.length → firstReceived? name inner = none := by
  simp only [isOpen_iff, lookup?]
  constructor
  · intro h
    obtain ⟨inside, scope, outside, hscopes, hfound, hinside⟩ := List.findSome?_eq_some_iff.mp h
    have hscope : (ofHistory history).scopes[inside.length]? = some scope := by simp [hscopes]
    -- The scope that answers is still open, and those inside of it were opened later.
    obtain ⟨since, hopen, hfind⟩ := exists_isOpenBelow_of_scope hscope
    refine ⟨since, ⟨_, hopen⟩, (hfind name).symm.trans hfound, ?_⟩
    rintro inner ⟨depth, hinner⟩ hlater
    obtain ⟨scope', hscope', hfind'⟩ := exists_scope_of_isOpenBelow hinner
    rw [hscopes, List.getElem?_append_left (hinner.lt hopen hlater)] at hscope'
    exact (hfind' name).symm.trans (hinside scope' (List.mem_of_getElem? hscope'))
  · rintro ⟨since, ⟨depth, hopen⟩, hfirst, hinner⟩
    obtain ⟨scope, hscope, hfind⟩ := exists_scope_of_isOpenBelow hopen
    obtain ⟨hlt, heq⟩ := List.getElem?_eq_some_iff.mp hscope
    -- The scopes before the one at `depth` were opened later, and none of them answers.
    have hscopes := (List.take_append_drop depth (ofHistory history).scopes).symm
    rw [List.drop_eq_getElem_cons hlt, heq] at hscopes
    refine List.findSome?_eq_some_iff.mpr ⟨_, scope, _, hscopes, (hfind name).trans hfirst, ?_⟩
    intro scope' hmem
    obtain ⟨depth', hscope'⟩ := List.mem_iff_getElem?.mp hmem
    obtain ⟨hinside, hscope'⟩ : depth' < depth ∧ (ofHistory history).scopes[depth']? = some scope' := by
      simpa [List.getElem?_take] using hscope'
    obtain ⟨inner, hopen', hfind'⟩ := exists_isOpenBelow_of_scope hscope'
    exact (hfind' name).trans (hinner inner ⟨depth', hopen'⟩ ((hopen'.lt_iff hopen).mp hinside))

theorem lookup?_eq_none_iff_history (name : String) :
    (ofHistory history).lookup? name = none ↔
      ∀ since, IsOpen history since → firstReceived? name since = none := by
  simp only [isOpen_iff, lookup?, List.findSome?_eq_none_iff]
  constructor
  · rintro h since ⟨depth, hopen⟩
    obtain ⟨scope, hscope, hfind⟩ := exists_scope_of_isOpenBelow hopen
    exact (hfind name).symm.trans (h scope (List.mem_of_getElem? hscope))
  · intro h scope hmem
    obtain ⟨depth, hscope⟩ := List.mem_iff_getElem?.mp hmem
    obtain ⟨since, hopen, hfind⟩ := exists_isOpenBelow_of_scope hscope
    exact (hfind name).trans (h since ⟨depth, hopen⟩)

theorem depth_eq_zero_iff_history : (ofHistory history).depth = 0 ↔ ∀ since, ¬IsOpen history since := by
  simp only [isOpen_iff]
  constructor
  · rintro h since ⟨depth, hopen⟩
    obtain ⟨scope, hscope, -⟩ := exists_scope_of_isOpenBelow hopen
    exact Nat.not_lt_zero depth (h ▸ (List.getElem?_eq_some_iff.mp hscope).1)
  · intro h
    by_contra hdepth
    obtain ⟨since, hopen⟩ := exists_isOpenBelow history (Nat.pos_of_ne_zero hdepth)
    exact h since ⟨0, hopen⟩

theorem insert_eq_taken_iff {s holder : Symbol} {t : SymbolTable} :
    t.insert s = .taken holder ↔
      ∃ scope : Scope, t.scopes[0]? = some scope ∧ scope.find? s.name = some holder := by
  obtain ⟨_ | ⟨scope, outer⟩⟩ := t
  · simp [insert]
  · cases hfind : scope.find? s.name <;> simp [insert, hfind]

theorem insert_eq_unscoped_iff {s : Symbol} {t : SymbolTable} : t.insert s = .unscoped ↔ t.depth = 0 := by
  obtain ⟨_ | ⟨scope, outer⟩⟩ := t
  · simp [insert, depth]
  · cases hfind : scope.find? s.name <;> simp [insert, depth, hfind]

theorem insert_eq_taken_iff_history (s holder : Symbol) :
    (ofHistory history).insert s = .taken holder ↔
      ∃ since, IsCurrent history since ∧ firstReceived? s.name since = some holder := by
  rw [insert_eq_taken_iff]
  constructor
  · rintro ⟨scope, hscope, hheld⟩
    obtain ⟨since, hopen, hfind⟩ := exists_isOpenBelow_of_scope hscope
    exact ⟨since, hopen, (hfind s.name).symm.trans hheld⟩
  · rintro ⟨since, hcurrent, hfirst⟩
    obtain ⟨scope, hscope, hfind⟩ := exists_scope_of_isOpenBelow hcurrent
    exact ⟨scope, hscope, (hfind s.name).trans hfirst⟩

theorem performAll_enter_exit {ops : List Operation} (h : Balanced ops) (t : SymbolTable) :
    t.performAll (.enter :: ops ++ [.exit]) = t := by
  have hdrop := drop_scopes_performAll h t.enter
  rw [performAll_append]
  exact congrArg SymbolTable.mk (List.drop_one.symm.trans hdrop)

/-- A table tells of each name and each scope what its history says. -/
structure Follows (t : SymbolTable) (history : List Operation) : Prop where
  /-- The scope entered last of those that received the name tells. -/
  found : ∀ name s, t.lookup? name = some s ↔
    ∃ since, IsOpen history since ∧ firstReceived? name since = some s ∧
      ∀ inner, IsOpen history inner → inner.length < since.length → firstReceived? name inner = none
  not_found : ∀ name, t.lookup? name = none ↔
    ∀ since, IsOpen history since → firstReceived? name since = none
  /-- Whatever the scopes further out hold. -/
  taken : ∀ s holder, t.insert s = .taken holder ↔
    ∃ since, IsCurrent history since ∧ firstReceived? s.name since = some holder
  unchanged_of_taken : ∀ s holder, t.insert s = .taken holder → t.perform (.insert s) = t
  unscoped : ∀ s, t.insert s = .unscoped ↔ ∀ since, ¬IsOpen history since
  unchanged_of_unscoped : (∀ since, ¬IsOpen history since) → t.exit = t ∧ ∀ s, t.perform (.insert s) = t
  /-- What is done in a scope that is entered and exited leaves nothing. -/
  restored : ∀ ops, Balanced ops → t.performAll (.enter :: ops ++ [.exit]) = t

theorem table_follows_history : (ofHistory history).Follows history where
  found := lookup?_eq_some_iff_history history
  not_found := lookup?_eq_none_iff_history history
  taken := insert_eq_taken_iff_history history
  unchanged_of_taken s holder h := by rw [perform, h]
  unscoped _ := insert_eq_unscoped_iff.trans (depth_eq_zero_iff_history history)
  unchanged_of_unscoped h := by
    have hempty : ofHistory history = empty :=
      congrArg SymbolTable.mk (List.eq_nil_of_length_eq_zero ((depth_eq_zero_iff_history history).mpr h))
    rw [hempty]
    exact ⟨rfl, fun _ => rfl⟩
  restored _ h := performAll_enter_exit h _

end SymbolTable

end PalChecker
