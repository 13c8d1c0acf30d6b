import Formula.Proofs.Session
import Formula.Proofs.Validation
import Mathlib.Data.List.GetD
import Mathlib.Data.List.Induction

/-!
# The history of a builder

What a builder knows is told by the names that have been mentioned to it, each in its place from the
first mention on. Nothing else that a client does has an influence on it: neither nodes that are
made without it nor attempts to build, of which it keeps no trace. Names are only added, so that what
can be built once can be built ever after.

## Main definitions

- `Session.mentioned`: the names mentioned so far, repetitions included
- `Request.rawIndices`: the indices that nodes were given without the builder
- `Session.Accounts`: every index in a node is declared or given without the builder

## Main statements

- `Session.params_run`: the parameters are the mentioned names without their repetitions
- `Session.Accounts.step`: every request keeps account of the indices
- `Session.run_without_builds`: attempts to build can be left out of a history
- `Session.builder_after_history`: what is known of a builder after any history
-/

namespace Formula

/-! ### Names without repetitions -/

section Distinct

variable {name : String} {names : List String}

theorem eraseDups_concat_of_mem (h : name ∈ names) :
    (names ++ [name]).eraseDups = names.eraseDups := by
  simp [List.eraseDups_append, List.cons_removeAll, h]

theorem eraseDups_concat_of_notMem (h : name ∉ names) :
    (names ++ [name]).eraseDups = names.eraseDups ++ [name] := by
  simp [List.eraseDups_append, List.cons_removeAll, List.eraseDups_cons, h]

theorem eraseDups_of_nodup (h : names.Nodup) : names.eraseDups = names := by
  induction names using List.reverseRecOn with
  | nil => rfl
  | append_singleton names name ih =>
    rw [List.nodup_append] at h
    have hnew : name ∉ names := fun hmem => h.2.2 name hmem name (List.mem_singleton_self _) rfl
    rw [eraseDups_concat_of_notMem hnew, ih h.1]

end Distinct

namespace Builder

variable {b : Builder} {name : String} {index : UInt32}

/-- The table of a builder is its list of names read the other way round. -/
theorem Consistent.index?_eq_some_iff (h : b.Consistent) (hfew : b.params.length ≤ UInt32.size) :
    b.index? name = some index ↔ b.params[index.toNat]? = some name := by
  constructor
  · intro hindex
    have hmem : name ∈ b.params := by
      by_contra hmem
      rw [h.index?_of_notMem hmem] at hindex
      cases hindex
    rw [h.index?_of_mem hmem] at hindex
    obtain rfl := Option.some_inj.mp hindex
    rw [NamedTree.toNat_idxOf hmem hfew]
    exact List.getElem?_idxOf hmem
  · intro hget
    obtain ⟨hlt, hname⟩ := List.getElem?_eq_some_iff.mp hget
    have hmem : name ∈ b.params := hname ▸ List.getElem_mem hlt
    have hposition : b.params.idxOf name = index.toNat := by
      rw [← hname, h.distinct.idxOf_getElem]
    rw [h.index?_of_mem hmem, hposition, UInt32.ofNat_toNat]

end Builder

/-! ### What comes of building -/

theorem Tree.eq_parameter_of_objection? {leaf : Tree} {n count : Nat} {index : UInt32}
    (h : leaf.objection? n = some (.invalidParameterIndex index count)) :
    leaf = .parameter index ∧ count = n ∧ n ≤ index.toNat := by
  cases leaf with
  | parameter own =>
    simp only [objection?, Option.ite_none_left_eq_some, Option.some_inj] at h
    obtain ⟨hindex, hfault⟩ := h
    obtain ⟨rfl, rfl⟩ := Fault.invalidParameterIndex.inj hfault
    exact ⟨rfl, rfl, Nat.le_of_not_lt hindex⟩
  | _ => cases h

theorem Tree.objection?_ne_duplicateParameter (leaf : Tree) (n : Nat) (name : String) :
    leaf.objection? n ≠ some (.duplicateParameter name) := by
  cases leaf <;> simp [objection?]

namespace Builder

variable {b later : Builder} {tree : Tree} {fault : Fault} {e : Expression}

/-- A builder whose names are distinct refuses a tree for the objection to its leftmost bad leaf. -/
theorem result_build_eq_error_iff (hdistinct : b.params.Nodup) :
    (b.build tree).result = .error (.fault fault) ↔
      tree.leaves.findSome? (Tree.objection? b.params.length) = some fault := by
  rw [Session.result_build, ← Expression.ofTree_eq_error_iff hdistinct]
  exact mapError_eq_error_iff fun _ _ => Failure.fault.inj

theorem result_build_eq_ok_iff :
    (b.build tree).result = .ok e ↔ e.root = tree ∧ e.params = b.params := by
  rw [Session.result_build, mapError_eq_ok_iff, Expression.ofTree_eq_ok_iff]

/-- With further names at the end a tree is built as before. -/
theorem exists_build_of_extends (hbuild : (b.build tree).result = .ok e)
    (hdistinct : later.params.Nodup) (hextends : b.params <+: later.params) :
    ∃ e', (later.build tree).result = .ok e' ∧ e.params <+: e'.params ∧ e'.root = e.root := by
  obtain ⟨rfl, hparams⟩ := result_build_eq_ok_iff.mp hbuild
  have hover : e.root.IsOver later.params.length :=
    e.root_isOver.mono (hparams ▸ hextends).length_le
  exact ⟨⟨e.root, later.params, hdistinct, Tree.check_eq_ok_iff.mpr hover⟩,
    result_build_eq_ok_iff.mpr ⟨rfl, rfl⟩, hparams ▸ hextends, rfl⟩

end Builder

namespace Request

theorem eq_parameter_of_mention? {request : Request} {name : String}
    (h : request.mention? = some name) : request = .parameter name := by
  cases request with
  | parameter other => rw [Option.some_inj.mp h]
  | _ => cases h

/-- The request is an attempt to build. -/
def isBuild : Request → Bool
  | .build _ => true
  | _ => false

/-- The indices that each node was given without the builder, after a request. Those below a node
that is not compiled do not count. -/
def extendRaw (raw : List (List UInt32)) : Request → List (List UInt32)
  | .index i => raw ++ [[i]]
  | .binary _ left right => raw ++ [raw.getD left [] ++ raw.getD right []]
  | .build _ => raw
  | _ => raw ++ [[]]

/-- The indices that the nodes that are asked for are given without the builder. -/
def rawIndices (requests : List Request) : List (List UInt32) :=
  requests.foldl extendRaw []

end Request

namespace Session

variable {s t : Session} {phrases : List (Option NamedTree)} {raw : List (List UInt32)}

/-! ### The names of a session -/

/-- The names that are declared beforehand and then mentioned, in order. -/
def mentioned (declared : Option (List String)) (requests : List Request) : List String :=
  declared.getD [] ++ requests.filterMap Request.mention?

theorem run_append (s : Session) (before after : List Request) :
    s.run (before ++ after) = (s.run before).run after :=
  List.foldl_append

theorem builder_step_of_mention?_eq_none {request : Request} (h : request.mention? = none) :
    (s.step request).builder = s.builder := by
  cases request with
  | parameter name => cases h
  | build root =>
    rw [step]
    split <;> rfl
  | _ => rfl

/-- Every request adds names at the end or none. -/
theorem Resolves.params_prefix_step (h : s.Resolves phrases) (request : Request) :
    s.builder.params <+: (s.step request).builder.params := by
  cases hmention : request.mention? with
  | none => exact builder_step_of_mention?_eq_none hmention ▸ List.prefix_refl _
  | some name =>
    obtain rfl := Request.eq_parameter_of_mention? hmention
    obtain ⟨builder, hrun, -, hextends, -⟩ := h.consistent.exists_run_parameter name
    rw [Session.step, hrun]
    exact hextends

theorem Resolves.params_prefix_run (h : s.Resolves phrases) (requests : List Request) :
    s.builder.params <+: (s.run requests).builder.params := by
  induction requests generalizing s phrases with
  | nil => exact List.prefix_refl _
  | cons request requests ih => exact (h.params_prefix_step request).trans (ih (h.step request))

theorem params_step_parameter (h : s.builder.Consistent) {names : List String}
    (hparams : s.builder.params = names.eraseDups) (name : String) :
    (s.step (.parameter name)).builder.params = (names ++ [name]).eraseDups := by
  change ((Builder.parameter name).run s.builder).2.params = _
  by_cases hmem : name ∈ names
  · have hlisted : name ∈ s.builder.params := hparams ▸ List.mem_eraseDups.mpr hmem
    rw [Builder.run_parameter_of_some (h.index?_of_mem hlisted), hparams,
      eraseDups_concat_of_mem hmem]
  · have hnew : name ∉ s.builder.params := fun hlisted =>
      hmem (List.mem_eraseDups.mp (hparams ▸ hlisted))
    rw [Builder.run_parameter_of_none (h.index?_of_notMem hnew), Builder.push, hparams,
      eraseDups_concat_of_notMem hmem]

/-- The parameters are the names that have been mentioned, in the order of their first mention. -/
theorem params_run {declared : Option (List String)} (hstart : start declared = .ok s)
    (requests : List Request) :
    (s.run requests).builder.params = (mentioned declared requests).eraseDups := by
  obtain ⟨hfirst, hdeclared⟩ := resolves_start hstart
  induction requests using List.reverseRecOn with
  | nil =>
    have hdistinct := hdeclared ▸ hfirst.consistent.distinct
    simp [mentioned, run, hdeclared, eraseDups_of_nodup hdistinct]
  | append_singleton requests request ih =>
    have hresolves := hfirst.run requests
    rw [run_append]
    change ((s.run requests).step request).builder.params = _
    cases hmention : request.mention? with
    | none =>
      rw [builder_step_of_mention?_eq_none hmention, ih]
      simp [mentioned, hmention]
    | some name =>
      obtain rfl := Request.eq_parameter_of_mention? hmention
      rw [params_step_parameter hresolves.consistent ih]
      simp [mentioned, Request.mention?]

/-- The mention of a name gives the leaf with the position that the name has ever after. -/
theorem run_parameter_eq {declared : Option (List String)} (hstart : start declared = .ok s)
    {before after : List Request} {name : String}
    (hfew : (s.run (before ++ .parameter name :: after)).builder.params.length ≤ UInt32.size) :
    ∃ index, ((Builder.parameter name).run (s.run before).builder).1 = .parameter index ∧
      index.toNat = (s.run (before ++ .parameter name :: after)).builder.params.idxOf name := by
  obtain ⟨hfirst, -⟩ := resolves_start hstart
  have hresolves := hfirst.run before
  obtain ⟨builder, hrun, -, -, hmem⟩ := hresolves.consistent.exists_run_parameter name
  have hname : name ∈ builder.params := (hmem name).mpr (.inl rfl)
  have hlater : builder.params <+: (s.run (before ++ .parameter name :: after)).builder.params := by
    have hprefix := (hresolves.step (.parameter name)).params_prefix_run after
    rw [Session.step, hrun] at hprefix
    rw [run_append]
    change _ <+: (run (step _ (.parameter name)) after).builder.params
    rw [Session.step, hrun]
    exact hprefix
  refine ⟨_, congrArg Prod.fst hrun, ?_⟩
  rw [NamedTree.toNat_idxOf hname (Nat.le_trans hlater.length_le hfew)]
  obtain ⟨rest, hrest⟩ := hlater
  rw [← hrest, List.idxOf_append_of_mem hname]

/-! ### Attempts to build -/

theorem step_build (s : Session) (root : Nat) :
    (s.step (.build root)).builder = s.builder ∧ (s.step (.build root)).nodes = s.nodes := by
  rw [step]
  split <;> exact ⟨rfl, rfl⟩

/-- What has come of earlier attempts to build has no influence on the builder and the nodes. -/
theorem step_congr (hbuilder : s.builder = t.builder) (hnodes : s.nodes = t.nodes)
    (request : Request) :
    (s.step request).builder = (t.step request).builder ∧
      (s.step request).nodes = (t.step request).nodes := by
  cases request with
  | build root =>
    obtain ⟨hs, hs'⟩ := s.step_build root
    obtain ⟨ht, ht'⟩ := t.step_build root
    rw [hs, hs', ht, ht']
    exact ⟨hbuilder, hnodes⟩
  | binary op left right => simp [step, put, node?, hbuilder, hnodes]
  | other kind operands =>
    have hnode : s.node? = t.node? := by
      funext number
      rw [node?, hnodes, node?]
    simp [step, put, hbuilder, hnodes, hnode]
  | parameter name =>
    simp only [step, put, hbuilder, hnodes]
    exact ⟨rfl, rfl⟩
  | _ => simp [step, put, hbuilder, hnodes]

/-- Attempts to build can be left out of a history. -/
theorem run_without_builds (hbuilder : s.builder = t.builder) (hnodes : s.nodes = t.nodes)
    (requests : List Request) :
    (s.run (requests.filter fun request => !request.isBuild)).builder = (t.run requests).builder ∧
      (s.run (requests.filter fun request => !request.isBuild)).nodes = (t.run requests).nodes := by
  induction requests generalizing s t with
  | nil => exact ⟨hbuilder, hnodes⟩
  | cons request requests ih =>
    cases hbuild : request.isBuild with
    | false =>
      rw [List.filter_cons_of_pos (by simp [hbuild])]
      obtain ⟨hsame, hsame'⟩ := step_congr hbuilder hnodes request
      exact ih hsame hsame'
    | true =>
      rw [List.filter_cons_of_neg (by simp [hbuild])]
      cases request with
      | build root =>
        obtain ⟨hkept, hkept'⟩ := t.step_build root
        exact ih (hbuilder.trans hkept.symm) (hnodes.trans hkept'.symm)
      | _ => cases hbuild

/-! ### Indices -/

/-- Every index that a walk over a node finds is declared or was given without the builder. -/
structure Accounts (s : Session) (raw : List (List UInt32)) : Prop where
  length_eq : s.nodes.length = raw.length
  lt_or_mem : ∀ {number : Nat} {tree : Tree} {index : UInt32}, s.node? number = some tree →
    .parameter index ∈ tree.leaves →
    index.toNat < s.builder.params.length ∨ index ∈ raw.getD number []

theorem node?_put_of_gt {node : Option Tree} {number : Nat} (h : s.nodes.length < number) :
    (s.put node).node? number = none := by
  rw [node?, put, List.getElem?_eq_none (by simp; omega)]
  rfl

/-- A node may be added if account is kept of its indices. -/
theorem Accounts.put (h : s.Accounts raw) {node : Option Tree} {new : List UInt32}
    (hnode : ∀ {tree : Tree} {index : UInt32}, node = some tree → .parameter index ∈ tree.leaves →
      index.toNat < s.builder.params.length ∨ index ∈ new) :
    (s.put node).Accounts (raw ++ [new]) where
  length_eq := by simp [Session.put, h.length_eq]
  lt_or_mem {number tree index} htree hleaf := by
    rcases Nat.lt_trichotomy number s.nodes.length with hold | hnew | hnone
    · rw [node?_put_of_lt hold] at htree
      rw [List.getD_append _ _ _ _ (h.length_eq ▸ hold)]
      exact h.lt_or_mem htree hleaf
    · subst hnew
      rw [node?_put_length] at htree
      rw [h.length_eq, List.getD_append_right _ _ _ _ (Nat.le_refl _), Nat.sub_self]
      exact hnode htree hleaf
    · rw [node?_put_of_gt hnone] at htree
      cases htree

/-- Every request keeps account of the indices. -/
theorem Accounts.step (h : s.Accounts raw) (hconsistent : s.builder.Consistent)
    (request : Request) : (s.step request).Accounts (request.extendRaw raw) := by
  cases request with
  | constant value =>
    refine h.put fun htree hleaf => ?_
    cases htree
    simp [Tree.leaves] at hleaf
  | parameter name =>
    obtain ⟨builder, hrun, -, hextends, hmem⟩ := hconsistent.exists_run_parameter name
    have hname : builder.params.idxOf name < builder.params.length :=
      List.idxOf_lt_length_of_mem ((hmem name).mpr (.inl rfl))
    have hgrown : Accounts { s with builder } raw :=
      ⟨h.length_eq, fun htree hleaf => (h.lt_or_mem htree hleaf).imp_left
        (Nat.lt_of_lt_of_le · hextends.length_le)⟩
    rw [Session.step, hrun]
    refine hgrown.put fun htree hleaf => .inl ?_
    -- where there are more names than indices, the index is smaller than the position
    cases htree
    obtain rfl := Tree.parameter.inj (List.mem_singleton.mp hleaf)
    exact Nat.lt_of_le_of_lt (Nat.mod_le _ _) hname
  | index index =>
    refine h.put fun htree hleaf => .inr ?_
    cases htree
    obtain rfl := Tree.parameter.inj (List.mem_singleton.mp hleaf)
    exact List.mem_singleton_self _
  | binary op left right =>
    refine h.put fun htree hleaf => ?_
    obtain ⟨l, hl, htree⟩ := Option.bind_eq_some_iff.mp htree
    obtain ⟨r, hr, htree⟩ := Option.bind_eq_some_iff.mp htree
    cases htree
    rw [List.mem_append]
    rcases List.mem_append.mp hleaf with hleft | hright
    · exact (h.lt_or_mem hl hleft).imp_right .inl
    · exact (h.lt_or_mem hr hright).imp_right .inr
  | other kind operands =>
    refine h.put fun htree hleaf => ?_
    obtain ⟨trees, -, htree⟩ := Option.bind_eq_some_iff.mp htree
    cases htree
    simp [Tree.leaves] at hleaf
  | build root =>
    rw [Session.step]
    split
    · exact ⟨h.length_eq, h.lt_or_mem⟩
    · exact h

theorem Accounts.run (h : s.Accounts raw) (hresolves : s.Resolves phrases)
    (requests : List Request) :
    (s.run requests).Accounts (requests.foldl Request.extendRaw raw) := by
  induction requests generalizing s phrases raw with
  | nil => exact h
  | cons request requests ih =>
    exact ih (h.step hresolves.consistent request) (hresolves.step request)

theorem accounts_start {declared : Option (List String)} (h : start declared = .ok s) :
    s.Accounts [] := by
  obtain ⟨hresolves, -⟩ := resolves_start h
  refine ⟨hresolves.length_eq, fun hnode => ?_⟩
  rw [node?, List.getElem?_eq_none (by simp [hresolves.length_eq])] at hnode
  cases hnode

/-- An index that is found to be undeclared was given to a node of the tree without the builder. -/
theorem Accounts.mem_of_build_eq_error (h : s.Accounts raw) (hdistinct : s.builder.params.Nodup)
    {root count : Nat} {tree : Tree} {index : UInt32} (hnode : s.node? root = some tree)
    (hbuild : (s.builder.build tree).result =
      .error (.fault (.invalidParameterIndex index count))) :
    count = s.builder.params.length ∧ count ≤ index.toNat ∧ .parameter index ∈ tree.leaves ∧
      index ∈ raw.getD root [] := by
  obtain ⟨leaf, hleaf, hobjection⟩ := List.exists_of_findSome?_eq_some
    ((Builder.result_build_eq_error_iff hdistinct).mp hbuild)
  obtain ⟨rfl, rfl, hindex⟩ := Tree.eq_parameter_of_objection? hobjection
  refine ⟨rfl, hindex, hleaf, ?_⟩
  rcases h.lt_or_mem hnode hleaf with hdeclared | hraw
  · omega
  · exact hraw

theorem build_ne_duplicateParameter (hdistinct : s.builder.params.Nodup) (tree : Tree)
    (name : String) :
    (s.builder.build tree).result ≠ .error (.fault (.duplicateParameter name)) := by
  intro hbuild
  obtain ⟨leaf, -, hobjection⟩ := List.exists_of_findSome?_eq_some
    ((Builder.result_build_eq_error_iff hdistinct).mp hbuild)
  exact leaf.objection?_ne_duplicateParameter _ name hobjection

/-- After any requests, the parameters are the names in the order of their first mention, and the
table of the builder has the position of each of them and nothing else. Names are added at the end
only, so that a name gets the same leaf whenever it is mentioned. Attempts to build leave no trace,
and any of them can be left out. They never fail for a repeated name, and for an undeclared index
only if that was given to a node of the tree without the builder. A tree that is built once is built
ever after, to the same program but for further parameters. -/
theorem builder_after_history (declared : Option (List String)) (first : Session)
    (hstart : start declared = .ok first) (requests : List Request)
    (hfew : (mentioned declared requests).eraseDups.length ≤ UInt32.size) :
    let s := first.run requests
    let params := s.builder.params
    params = (mentioned declared requests).eraseDups ∧ params.Nodup ∧
      (∀ name index, s.builder.index? name = some index ↔ params[index.toNat]? = some name) ∧
      (∀ more, params <+: (s.run more).builder.params) ∧
      (∀ before name after, requests = before ++ .parameter name :: after →
        ∃ index, ((Builder.parameter name).run (first.run before).builder).1 = .parameter index ∧
          index.toNat = params.idxOf name) ∧
      (∀ root, (s.step (.build root)).builder = s.builder ∧
        (s.step (.build root)).nodes = s.nodes) ∧
      ((first.run (requests.filter fun request => !request.isBuild)).builder = s.builder ∧
        (first.run (requests.filter fun request => !request.isBuild)).nodes = s.nodes) ∧
      (∀ tree name,
        (s.builder.build tree).result ≠ .error (.fault (.duplicateParameter name))) ∧
      (∀ root tree index count, s.node? root = some tree →
        (s.builder.build tree).result = .error (.fault (.invalidParameterIndex index count)) →
          count = params.length ∧ count ≤ index.toNat ∧ .parameter index ∈ tree.leaves ∧
            index ∈ (Request.rawIndices requests).getD root []) ∧
      ∀ tree e, (s.builder.build tree).result = .ok e → ∀ more,
        ∃ e', ((s.run more).builder.build tree).result = .ok e' ∧ e.params <+: e'.params ∧
          ∃ p p', e.compile.result = .ok p ∧ e'.compile.result = .ok p' ∧
            p'.instructions = p.instructions ∧ p'.maxDepth = p.maxDepth := by
  intro s params
  obtain ⟨hfirst, -⟩ := resolves_start hstart
  have hresolves : s.Resolves _ := hfirst.run requests
  have hconsistent := hresolves.consistent
  have hparams : params = _ := params_run hstart requests
  have hlength : params.length ≤ UInt32.size := hparams ▸ hfew
  have haccounts : s.Accounts _ := (accounts_start hstart).run hfirst requests
  refine ⟨hparams, hconsistent.distinct, fun name index => hconsistent.index?_eq_some_iff hlength,
    hresolves.params_prefix_run, ?_, s.step_build, run_without_builds rfl rfl requests,
    build_ne_duplicateParameter hconsistent.distinct, fun root tree index count hnode hbuild =>
      haccounts.mem_of_build_eq_error hconsistent.distinct hnode hbuild, ?_⟩
  · rintro before name after rfl
    exact run_parameter_eq hstart hlength
  · intro tree e hbuild more
    obtain ⟨e', hbuild', hextends, hroot⟩ := Builder.exists_build_of_extends hbuild
      (hresolves.run more).consistent.distinct (hresolves.params_prefix_run more)
    exact ⟨e', hbuild', hextends, e.program, e'.program, e.result_compile, e'.result_compile,
      congrArg Tree.postorder hroot, congrArg Tree.need hroot⟩

/-- A name that is declared beforehand and one that is mentioned keep their positions past an attempt
to build a node with an index that is not declared, and a product of both is built to the same
instructions after a third name is mentioned. -/
theorem product_after_history :
    ∃ first, start (some ["y"]) = .ok first ∧
      let requests : List Request := [.parameter "x", .index 5, .binary .add 0 1, .build 2,
        .parameter "y", .binary .multiply 0 3]
      let s := first.run requests
      s.builder.params = ["y", "x"] ∧ s.builder.index? "x" = some 1 ∧
        (∃ index, ((Builder.parameter "y").run (first.run (requests.take 4)).builder).1 =
          .parameter index ∧ index.toNat = 0) ∧
        (∀ index count, (s.builder.build (.binary .add (.parameter 1) (.parameter 5))).result =
          .error (.fault (.invalidParameterIndex index count)) → count = 2 ∧ index = 5) ∧
        ∃ e', ((s.run [.parameter "z"]).builder.build
            (.binary .multiply (.parameter 1) (.parameter 0))).result = .ok e' ∧
          ["y", "x"] <+: e'.params ∧
          ∃ p', e'.compile.result = .ok p' ∧
            p'.instructions = [.loadParameter 1, .loadParameter 0, .operate .multiply] := by
  refine ⟨{ builder := ⟨["y"], [("y", 0)]⟩ }, rfl, ?_⟩
  intro requests s
  obtain ⟨hparams, -, htable, -, hleaf, -, -, -, hraw, hlater⟩ :=
    builder_after_history (some ["y"]) { builder := ⟨["y"], [("y", 0)]⟩ } rfl requests (by decide)
  let e : Expression := {
    root := .binary .multiply (.parameter 1) (.parameter 0)
    params := ["y", "x"]
    distinct := by decide
    checked := rfl }
  have hbuild : (s.builder.build e.root).result = .ok e :=
    Builder.result_build_eq_ok_iff.mpr ⟨rfl, hparams.symm⟩
  obtain ⟨e', hbuild', hextends, p, p', hp, hp', hinstructions, -⟩ :=
    hlater e.root e hbuild [.parameter "z"]
  refine ⟨hparams, (htable "x" 1).mpr rfl, hleaf (requests.take 4) "y" [.binary .multiply 0 3] rfl,
    fun index count hfault => ?_, e', hbuild', hextends, p', hp', ?_⟩
  · obtain ⟨hcount, -, -, hindex⟩ := hraw 2 _ index count rfl hfault
    exact ⟨hcount, List.mem_singleton.mp hindex⟩
  · rw [hinstructions, ← Except.ok.inj (e.result_compile.symm.trans hp)]
    rfl

end Session

end Formula
