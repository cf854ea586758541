import DefunReader.Proofs.Numbering

/-! How a tree grows: by whole branches behind the last child of a node. Nothing else in it changes, so the trail
of every node that was there stays what it was. -/
namespace DefunReader.Tree

open Shape (numbers listings)

def adopt (parent : Nat) (ids : List Nat) (nodes : List Node) : List Node :=
  nodes.modify parent fun node => { node with children := node.children ++ ids }

@[simp] theorem length_adopt (parent : Nat) (ids : List Nat) (nodes : List Node) :
    (adopt parent ids nodes).length = nodes.length :=
  List.length_modify ..

theorem adopt_nil (parent : Nat) (nodes : List Node) : adopt parent [] nodes = nodes := by
  simp only [adopt, List.append_nil]
  exact List.modify_id ..

theorem adopt_adopt (parent : Nat) (ids more : List Nat) (nodes : List Node) :
    adopt parent more (adopt parent ids nodes) = adopt parent (ids ++ more) nodes := by
  simp only [adopt, List.modify_modify_eq, Function.comp_def, List.append_assoc]

theorem adopt_append {parent : Nat} {nodes : List Node} (ids : List Nat) (more : List Node) (below : parent < nodes.length) :
    adopt parent ids (nodes ++ more) = adopt parent ids nodes ++ more := by
  induction nodes generalizing parent with
  | nil => cases below
  | cons node nodes ih =>
    cases parent with
    | zero => rfl
    | succ parent =>
      simp only [adopt, List.cons_append, List.modify_succ_cons] at ih ⊢
      rw [ih (Nat.lt_of_succ_lt_succ below)]

theorem modify_length {id : Nat} {nodes : List Node} (change : Node → Node) (node : Node) (more : List Node)
    (last : id = nodes.length) : (nodes ++ node :: more).modify id change = nodes ++ change node :: more := by
  subst last
  induction nodes with
  | nil => rfl
  | cons _ nodes ih => rw [List.cons_append, List.length_cons, List.modify_succ_cons, ih, List.cons_append]

theorem size_eq_length (t : Tree) : t.size = t.nodes.toList.length :=
  Array.length_toList.symm

/-- `next` has these branches added as the last children of `parent`. -/
structure Grows (t : Tree) (parent : Nat) (shapes : List Shape) (next : Tree) : Prop where
  below : parent < t.size
  nodes : next.nodes.toList = adopt parent (numbers t.size shapes) t.nodes.toList ++ listings parent t.size shapes

variable {t middle next : Tree} {parent : Nat} {shapes more : List Shape}

theorem Grows.size (grows : t.Grows parent shapes next) : next.size = t.size + Shape.counts shapes := by
  rw [size_eq_length, grows.nodes, List.length_append, length_adopt, Shape.length_listings, ← size_eq_length]

theorem Grows.refl (below : parent < t.size) : t.Grows parent [] t :=
  ⟨below, by rw [numbers, adopt_nil, listings, List.append_nil]⟩

theorem Grows.trans (first : t.Grows parent shapes middle) (second : middle.Grows parent more next) :
    t.Grows parent (shapes ++ more) next := by
  refine ⟨first.below, ?_⟩
  have below : parent < (adopt parent (numbers t.size shapes) t.nodes.toList).length := by
    rw [length_adopt, ← size_eq_length]
    exact first.below
  rw [second.nodes, first.size, first.nodes, adopt_append _ _ below, adopt_adopt, ← Shape.numbers_append,
    List.append_assoc, ← Shape.listings_append]

theorem grows_addChild (t : Tree) (below : parent < t.size) (kind : Node.Kind) (value : Option Node.Value) (span : Span) :
    t.Grows parent [.node kind value span []] (t.addChild parent below kind value span) :=
  ⟨below, by simp [addChild, adopt, numbers, listings, Shape.listing]⟩

theorem Grows.last {kind : Node.Kind} {value : Option Node.Value} {span : Span}
    (grows : t.Grows parent [.node kind value span shapes] next) : ∃ before, t.size = before.length ∧
      before = adopt parent [t.size] t.nodes.toList ∧ next.nodes.toList = before ++
        { kind, value, children := numbers (t.size + 1) shapes, parent := some parent, span } ::
          listings t.size (t.size + 1) shapes := by
  refine ⟨_, ?_, rfl, ?_⟩
  · rw [length_adopt, size_eq_length]
  · simpa only [numbers, listings, Shape.listing, List.append_nil] using grows.nodes

theorem Grows.extend {kind : Node.Kind} {value : Option Node.Value} {span : Span}
    (first : t.Grows parent [.node kind value span shapes] middle) (second : middle.Grows t.size more next) :
    t.Grows parent [.node kind value span (shapes ++ more)] next := by
  refine ⟨first.below, ?_⟩
  have size : middle.size = t.size + 1 + Shape.counts shapes := by
    rw [first.size]
    simp only [Shape.counts, Shape.count]
    omega
  obtain ⟨before, last, same, nodes⟩ := first.last
  rw [second.nodes, nodes, size, adopt, modify_length _ _ _ last]
  simp only [same, numbers, listings, Shape.listing, Shape.numbers_append, Shape.listings_append, List.append_nil,
    List.append_assoc, List.cons_append]

theorem Grows.setKind {kind changed : Node.Kind} {value : Option Node.Value} {span : Span}
    (grows : t.Grows parent [.node kind value span shapes] next) :
    t.Grows parent [.node changed value span shapes] (next.setKind t.size changed) := by
  refine ⟨grows.below, ?_⟩
  obtain ⟨before, last, same, nodes⟩ := grows.last
  rw [Tree.setKind, Array.toList_modify, nodes, modify_length _ _ _ last]
  simp only [same, numbers, listings, Shape.listing, List.append_nil]

theorem Grows.node {id : Nat} (grows : t.Grows parent shapes next) (h : id < t.size) :
    ∃ h' : id < next.size, next.node id h' =
      { t.node id h with
        children := (t.node id h).children ++ if id = parent then numbers t.size shapes else [] } := by
  have h' : id < next.size := Nat.lt_of_lt_of_le h (grows.size ▸ Nat.le_add_right _ _)
  refine ⟨h', Option.some.inj ?_⟩
  have there : t.nodes.toList[id]? = some (t.node id h) := by
    rw [Array.getElem?_toList, getElem?_eq_node]
  have inside : id < (adopt parent (numbers t.size shapes) t.nodes.toList).length := by
    rw [length_adopt, ← size_eq_length]
    exact h
  rw [← getElem?_eq_node, ← Array.getElem?_toList, grows.nodes, List.getElem?_append_left inside, adopt,
    List.getElem?_modify, there]
  by_cases same : parent = id
  · simp [same]
  · simp [same, Ne.symm same]

theorem trail_of_root {id : Nat} {h : id < t.size} (found : t.parent? id h = none) :
    t.trail id h = [(t.node id h).kind] := by
  rw [trail]
  split <;> simp_all

theorem trail_of_child {id above : Nat} {h : id < t.size} (found : t.parent? id h = some above) :
    t.trail id h = (t.node id h).kind :: t.trail above (Nat.lt_trans (t.parent?_lt found) h) := by
  rw [trail]
  split
  · simp_all
  · rename_i other found'
    cases found.symm.trans found'
    rfl

def Trails (t : Tree) (id : Nat) (within : List Node.Kind) : Prop :=
  ∃ h : id < t.size, t.trail id h = within

theorem Grows.trails {id : Nat} {within : List Node.Kind} (grows : t.Grows parent shapes next)
    (trails : t.Trails id within) : next.Trails id within := by
  obtain ⟨h, rfl⟩ := trails
  induction id using Nat.strongRecOn with
  | ind id ih =>
    obtain ⟨h', same⟩ := grows.node h
    refine ⟨h', ?_⟩
    have parent : next.parent? id h' = t.parent? id h := by rw [parent?, same, parent?]
    cases found : t.parent? id h with
    | none => rw [trail_of_root found, trail_of_root (parent.trans found), same]
    | some above =>
      obtain ⟨_, trail⟩ := ih above (t.parent?_lt found) (Nat.lt_trans (t.parent?_lt found) h)
      rw [trail_of_child found, trail_of_child (parent.trans found), same, trail]

theorem Grows.trails_last {kind : Node.Kind} {value : Option Node.Value} {span : Span} {within : List Node.Kind}
    (grows : t.Grows parent [.node kind value span shapes] next) (trails : t.Trails parent within) :
    next.Trails t.size (kind :: within) := by
  obtain ⟨_, above⟩ := grows.trails trails
  obtain ⟨before, last, -, nodes⟩ := grows.last
  have h : t.size < next.size := by
    rw [grows.size, Shape.counts, Shape.count]
    omega
  have found : next.node t.size h =
      { kind, value, children := numbers (t.size + 1) shapes, parent := some parent, span } := by
    apply Option.some.inj
    rw [← getElem?_eq_node, ← Array.getElem?_toList, nodes, last, List.getElem?_append_right (Nat.le_refl _),
      Nat.sub_self, List.getElem?_cons_zero]
  have up : next.parent? t.size h = some parent := by rw [parent?, found]
  exact ⟨h, by rw [trail_of_child up, above, found]⟩

end DefunReader.Tree
