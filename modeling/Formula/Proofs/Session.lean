import Formula.Proofs.Declaration
import Formula.Proofs.Naming
import Mathlib.Data.List.Dedup

/-!
# Sessions with a builder

A client of a builder makes nodes, some of them by name and some without the builder, and builds
expressions of them, in any order. Whatever it asks for meanwhile, a tree of named parameters is
built to the expression that its names call for.

## Main definitions

- `Request`: one thing that a client asks for
- `Session`: the builder, the nodes and the built expressions of a client
- `Session.run`: the session after a list of requests
- `Request.phrases`: what the nodes of a list of requests are meant to be
- `Session.Resolves`: the nodes of a session are what they are meant to be

## Main statements

- `Session.Resolves.step`: every request keeps the nodes what they are meant to be
- `Session.build_phrase`: an expression that is built has the meaning of the names in its tree

## Design notes

A request refers to nodes by their numbers. One that refers to a node that is not there makes none,
but takes a number all the same, so that every list of requests is a session.
-/

namespace Formula

/-- What a client of a builder asks for. The nodes that are made are numbered from zero. -/
inductive Request where
  | constant (value : Float)
  /-- The leaf of a parameter by its name. -/
  | parameter (name : String)
  /-- The leaf of a parameter by its index, which is made without the builder. -/
  | index (index : UInt32)
  | binary (op : Operator) (left right : Nat)
  | other (kind : String) (operands : List Nat)
  /-- The expression of a node, which is no new node. -/
  | build (root : Nat)
  deriving Repr

/-- What a client has of its requests. -/
structure Session where
  builder : Builder := {}
  /-- The nodes in the order of their numbers. -/
  nodes : List (Option Tree) := []
  /-- What has come of building expressions, in order. -/
  built : List (Except Failure Expression) := []

namespace Session

/-- The node with the given number. -/
def node? (s : Session) (number : Nat) : Option Tree :=
  s.nodes[number]?.join

/-- Gives the next number to a node, or to the lack of one. -/
def put (s : Session) (node : Option Tree) : Session :=
  { s with nodes := s.nodes ++ [node] }

/-- Does what is asked for. -/
def step (s : Session) : Request → Session
  | .constant value => s.put (some (.constant value))
  | .parameter name =>
    let (leaf, builder) := (Builder.parameter name).run s.builder
    { s with builder }.put (some leaf)
  | .index index => s.put (some (.parameter index))
  | .binary op left right => s.put do return .binary op (← s.node? left) (← s.node? right)
  | .other kind operands => s.put do return .other kind (← operands.mapM s.node?)
  | .build root =>
    match s.node? root with
    | some tree => { s with built := s.built ++ [(s.builder.build tree).result] }
    | none => s

/-- Does what is asked for in order. -/
def run (s : Session) (requests : List Request) : Session :=
  requests.foldl step s

/-- A new session, with parameters declared beforehand if a list of names is given. -/
def start : Option (List String) → Except Fault Session
  | none => .ok {}
  | some names => do return { builder := ← Builder.declaring names }

end Session

namespace Request

/-- The parameter that a request mentions. -/
def mention? : Request → Option String
  | .parameter name => some name
  | _ => none

/-- What the nodes are meant to be after a request, given what they were meant to be before. A node
with a leaf that is not named or of another kind has no meaning. -/
def extend (phrases : List (Option NamedTree)) : Request → List (Option NamedTree)
  | .constant value => phrases ++ [some (.constant value)]
  | .parameter name => phrases ++ [some (.parameter name)]
  | .index _ => phrases ++ [none]
  | .binary op left right =>
    phrases ++ [do return .binary op (← phrases[left]?.join) (← phrases[right]?.join)]
  | .other _ _ => phrases ++ [none]
  | .build _ => phrases

/-- What the nodes that are asked for are meant to be. -/
def phrases (requests : List Request) : List (Option NamedTree) :=
  requests.foldl extend []

end Request

namespace Session

variable {s : Session} {phrases : List (Option NamedTree)} {phrase : NamedTree}

/-! ### Nodes and what they are meant to be -/

/-- The nodes of a session are what they are meant to be, by the names declared so far. -/
structure Resolves (s : Session) (phrases : List (Option NamedTree)) : Prop where
  consistent : s.builder.Consistent
  length_eq : s.nodes.length = phrases.length
  isOver : ∀ {number : Nat} {phrase : NamedTree}, phrases[number]?.join = some phrase →
    phrase.IsOver s.builder.params
  node?_eq : ∀ {number : Nat} {phrase : NamedTree}, phrases[number]?.join = some phrase →
    s.node? number = some (phrase.resolve s.builder.params)

theorem join_getElem?_append {α : Type} {items : List (Option α)} {last : Option α} {item : α}
    {number : Nat} (h : (items ++ [last])[number]?.join = some item) :
    items[number]?.join = some item ∨ number = items.length ∧ last = some item := by
  by_cases hnumber : number < items.length
  · rw [List.getElem?_append_left hnumber] at h
    exact .inl h
  · by_cases hlast : number = items.length
    · subst hlast
      rw [List.getElem?_concat_length] at h
      exact .inr ⟨rfl, h⟩
    · rw [List.getElem?_eq_none (by simp; omega)] at h
      cases h

theorem node?_put_of_lt {node : Option Tree} {number : Nat} (h : number < s.nodes.length) :
    (s.put node).node? number = s.node? number := by
  rw [node?, put, List.getElem?_append_left h, node?]

theorem node?_put_length (node : Option Tree) : (s.put node).node? s.nodes.length = node := by
  rw [node?, put, List.getElem?_concat_length]
  rfl

theorem lt_length_of_join {α : Type} {items : List (Option α)} {item : α} {number : Nat}
    (h : items[number]?.join = some item) : number < items.length := by
  by_contra hnumber
  rw [List.getElem?_eq_none (Nat.le_of_not_lt hnumber)] at h
  cases h

/-- A node that is what it is meant to be may be added. -/
theorem Resolves.put (h : s.Resolves phrases) {node : Option Tree} {meant : Option NamedTree}
    (hnode : ∀ phrase, meant = some phrase → phrase.IsOver s.builder.params ∧
      node = some (phrase.resolve s.builder.params)) :
    (s.put node).Resolves (phrases ++ [meant]) where
  consistent := h.consistent
  length_eq := by simp [Session.put, h.length_eq]
  isOver hphrase := by
    rcases join_getElem?_append hphrase with hold | ⟨-, hnew⟩
    · exact h.isOver hold
    · exact (hnode _ hnew).1
  node?_eq hphrase := by
    rcases join_getElem?_append hphrase with hold | ⟨rfl, hnew⟩
    · rw [node?_put_of_lt (h.length_eq ▸ lt_length_of_join hold)]
      exact h.node?_eq hold
    · rw [← h.length_eq, node?_put_length]
      exact (hnode _ hnew).2

/-- New names leave the nodes what they are meant to be. -/
theorem Resolves.grow (h : s.Resolves phrases) {builder : Builder}
    (hconsistent : builder.Consistent) (hextends : s.builder.params <+: builder.params) :
    Resolves { s with builder } phrases where
  consistent := hconsistent
  length_eq := h.length_eq
  isOver hphrase := (h.isOver hphrase).of_extends hextends
  node?_eq hphrase := by
    rw [(h.isOver hphrase).resolve_eq_of_extends hextends]
    exact h.node?_eq hphrase

/-! ### Requests -/

/-- Every request keeps the nodes what they are meant to be. -/
theorem Resolves.step (h : s.Resolves phrases) (request : Request) :
    (s.step request).Resolves (request.extend phrases) := by
  cases request with
  | constant value =>
    refine h.put fun phrase hphrase => ?_
    cases hphrase
    exact ⟨.constant value, rfl⟩
  | parameter name =>
    obtain ⟨builder, hrun, hconsistent, hextends, hmem⟩ := h.consistent.exists_run_parameter name
    rw [Session.step, hrun]
    refine (h.grow hconsistent hextends).put fun phrase hphrase => ?_
    cases hphrase
    exact ⟨.parameter ((hmem name).mpr (.inl rfl)), rfl⟩
  | index index => exact h.put fun phrase hphrase => nomatch hphrase
  | binary op left right =>
    refine h.put fun phrase hphrase => ?_
    -- both operands are meant to be something, so they are there
    obtain ⟨l, hl, hphrase⟩ := Option.bind_eq_some_iff.mp hphrase
    obtain ⟨r, hr, hphrase⟩ := Option.bind_eq_some_iff.mp hphrase
    cases hphrase
    rw [h.node?_eq hl, h.node?_eq hr]
    exact ⟨.binary op (h.isOver hl) (h.isOver hr), rfl⟩
  | other kind operands => exact h.put fun phrase hphrase => nomatch hphrase
  | build root =>
    rw [Session.step]
    split
    · exact ⟨h.consistent, h.length_eq, h.isOver, h.node?_eq⟩
    · exact h

theorem Resolves.run (h : s.Resolves phrases) (requests : List Request) :
    (s.run requests).Resolves (requests.foldl Request.extend phrases) := by
  induction requests generalizing s phrases with
  | nil => exact h
  | cons request requests ih => exact ih (h.step request)

/-- A request declares no name that it does not mention. -/
theorem mem_params_step (hconsistent : s.builder.Consistent) {request : Request} {name : String}
    (hname : name ∈ (s.step request).builder.params) :
    name ∈ s.builder.params ∨ request.mention? = some name := by
  cases request with
  | parameter mentioned =>
    obtain ⟨builder, hrun, -, -, hmem⟩ := hconsistent.exists_run_parameter mentioned
    rw [Session.step, hrun] at hname
    rcases (hmem name).mp hname with rfl | hold
    · exact .inr rfl
    · exact .inl hold
  | build root =>
    rw [Session.step] at hname
    split at hname <;> exact .inl hname
  | _ => exact .inl hname

theorem mem_params_run (h : s.Resolves phrases) {requests : List Request} {name : String}
    (hname : name ∈ (s.run requests).builder.params) :
    name ∈ s.builder.params ++ requests.filterMap Request.mention? := by
  induction requests generalizing s phrases with
  | nil => exact List.mem_append_left _ hname
  | cons request requests ih =>
    have hlater := ih (h.step request) hname
    rw [List.mem_append] at hlater
    rcases hlater with hparams | hmentioned
    · rcases mem_params_step h.consistent hparams with hold | hmention
      · exact List.mem_append_left _ hold
      · rw [List.filterMap_cons_some hmention]
        exact List.mem_append_right _ List.mem_cons_self
    · refine List.mem_append_right _ ?_
      rw [List.filterMap_cons]
      split
      · exact hmentioned
      · exact List.mem_cons_of_mem _ hmentioned

theorem resolves_start {declared : Option (List String)} (h : start declared = .ok s) :
    s.Resolves [] ∧ s.builder.params = declared.getD [] := by
  cases declared with
  | none =>
    cases h
    exact ⟨⟨Builder.consistent_empty, rfl, nofun, nofun⟩, rfl⟩
  | some names =>
    cases hbuilder : Builder.declaring names with
    | error fault =>
      rw [start, hbuilder] at h
      cases h
    | ok builder =>
      rw [start, hbuilder] at h
      cases h
      obtain ⟨hconsistent, hparams⟩ := Builder.consistent_of_declaring hbuilder
      exact ⟨⟨hconsistent, rfl, nofun, nofun⟩, hparams⟩

/-! ### Building -/

theorem result_build (builder : Builder) (tree : Tree) :
    (builder.build tree).result =
      (Expression.ofTree tree builder.params).mapError .fault := by
  rw [Builder.build, Expression.validate, Attempt.result_bind, Attempt.result_liftM_fault]
  cases Expression.ofTree tree builder.params <;> rfl

/-- A phrase over few enough names is built, and the expression has its meaning. -/
theorem Resolves.exists_build [Arithmetic] (h : s.Resolves phrases)
    (hfew : s.builder.params.length ≤ UInt32.size) {root : Nat}
    (hroot : phrases[root]?.join = some phrase) :
    ∃ tree e, s.node? root = some tree ∧ (s.builder.build tree).result = .ok e ∧
      e.root = tree ∧ e.params = s.builder.params ∧
      (∀ environment : String → Float,
        e.evaluate (e.params.map environment) = .ok (phrase.value environment)) ∧
      e.render = .ok phrase.render := by
  have hover := h.isOver hroot
  have hchecked := Tree.check_eq_ok_iff.mpr (hover.isOver_resolve hfew)
  obtain ⟨e, hmade⟩ := Expression.exists_ofTree h.consistent.distinct hchecked
  obtain ⟨hresolved, hparams⟩ := Expression.ofTree_eq_ok_iff.mp hmade
  refine ⟨_, e, h.node?_eq hroot, ?_, hresolved, hparams, fun environment => ?_, ?_⟩
  · rw [result_build, hmade]
    rfl
  · have hlength : (e.params.map environment).length = e.arity := List.length_map _
    rw [e.evaluate_of_length_eq hlength, hresolved, hparams,
      hover.value_resolve hfew environment]
  · rw [Expression.render, hresolved, hparams]
    exact hover.render_resolve hfew

/-- Whatever names are declared beforehand and whatever else is asked for, a tree of named
parameters is built to an expression that has, for the values of its parameters in any environment,
the value of the tree with names, and its rendering. Neither depends on the order in which names are
declared or mentioned. An index has 32 bits, so there must not be more names than indices. -/
theorem build_phrase [Arithmetic] (declared : Option (List String)) (first : Session)
    (hstart : start declared = .ok first) (requests : List Request)
    (hfew : (declared.getD [] ++ requests.filterMap Request.mention?).dedup.length ≤ UInt32.size)
    (root : Nat) (phrase : NamedTree)
    (hroot : (Request.phrases requests)[root]?.join = some phrase) :
    let s := first.run requests
    ∃ tree e, s.node? root = some tree ∧ (s.builder.build tree).result = .ok e ∧
      e.root = tree ∧ e.params = s.builder.params ∧
      (∀ environment : String → Float,
        e.evaluate (e.params.map environment) = .ok (phrase.value environment)) ∧
      e.render = .ok phrase.render := by
  obtain ⟨hfirst, hdeclared⟩ := resolves_start hstart
  have hresolves := hfirst.run requests
  have hsubset : (first.run requests).builder.params ⊆
      (declared.getD [] ++ requests.filterMap Request.mention?).dedup := by
    intro name hname
    rw [List.mem_dedup, ← hdeclared]
    exact mem_params_run hfirst hname
  have hlength := hresolves.consistent.distinct.length_le_of_subset hsubset
  exact hresolves.exists_build (Nat.le_trans hlength hfew) hroot

/-- A quotient of named parameters keeps its meaning where the names are declared the other way
round and another tree mentions a third name between them. -/
theorem build_quotient :
    ∃ first, start (some ["y", "x"]) = .ok first ∧
      let s := first.run [.parameter "x", .parameter "z", .index 7, .binary .add 1 2, .build 3,
        .parameter "y", .binary .divide 0 4]
      ∃ tree e, s.node? 5 = some tree ∧ (s.builder.build tree).result = .ok e ∧
        e.params = ["y", "x", "z"] ∧
        (∃ value, e.evaluate [2.0, 1.0, 3.0] = .ok value ∧ value = Operator.divide.apply 1.0 2.0) ∧
        e.render = .ok "div(x, y)" := by
  refine ⟨{ builder := ⟨["y", "x"], [("x", 1), ("y", 0)]⟩ }, rfl, ?_⟩
  intro s
  obtain ⟨tree, e, hnode, hbuild, -, hparams, hvalue, hrender⟩ := build_phrase (some ["y", "x"])
    { builder := ⟨["y", "x"], [("x", 1), ("y", 0)]⟩ } rfl
    [.parameter "x", .parameter "z", .index 7, .binary .add 1 2, .build 3, .parameter "y",
      .binary .divide 0 4] (by decide) 5
    (.binary .divide (.parameter "x") (.parameter "y")) rfl
  refine ⟨tree, e, hnode, hbuild, hparams, ?_, hrender⟩
  have hthis := hvalue fun name => if name = "x" then 1.0 else if name = "y" then 2.0 else 3.0
  rw [hparams] at hthis
  exact ⟨_, hthis, rfl⟩

end Session

end Formula
