import Mathlib.Data.List.Chain
import Mathlib.Data.List.Cycle
import Mathlib.Data.Finset.Card
import Mathlib.Logic.Relation

/-!
# Depth-first search for a cycle

A search that follows edges and remembers the nodes it has seen. It reports a cycle through the
start, with the labels on the way. A node seen before is not entered again.
-/

namespace FortressQL.Lib.CycleSearch

open Option List Relation

variable {Node Label : Type*} [DecidableEq Node]

structure Found (Node Label : Type*) where
  cycle : Bool
  visited : List Node
  labels : List Label

/-- The edges of one node in turn, until one of them closes the cycle. -/
def followEdges (explore : List Node → Node → Option (Found Node Label)) :
    List (Node × Option Label) → List Node → Option (Found Node Label)
  | [], visited => some ⟨false, visited, []⟩
  | (target, label) :: rest, visited =>
    (explore visited target).bind fun found =>
      if found.cycle then some { found with labels := found.labels ++ label.toList }
      else followEdges explore rest found.visited

/-- The fuel bounds the length of a way. -/
def search (edges : Node → List (Node × Option Label)) (start : Node) :
    Nat → List Node → Node → Option (Found Node Label)
  | 0, visited, node => if node ∈ visited then some ⟨node = start, visited, []⟩ else none
  | fuel + 1, visited, node =>
    if node ∈ visited then some ⟨node = start, visited, []⟩
    else followEdges (search edges start fuel) (edges node) (node :: visited)

def Edge (edges : Node → List (Node × Option Label)) (first second : Node) : Prop :=
  ∃ label, (second, label) ∈ edges first

section Cycles

omit [DecidableEq Node]

variable {leads : Node → Node → Prop} {nodes : Cycle Node}

theorem chain_returns (chain : Cycle.Chain leads nodes) {node : Node} (member : node ∈ nodes) :
    TransGen leads node node := by
  have related := Cycle.chain_iff_pairwise.mp (chain.imp fun _ _ => TransGen.single)
  exact related node member node member

theorem chain_narrows {narrower : Node → Node → Prop} (chain : Cycle.Chain leads nodes)
    (narrows : ∀ first, ∀ second ∈ nodes, leads first second → narrower first second) :
    Cycle.Chain narrower nodes := by
  induction nodes using Cycle.induction_on with
  | nil => trivial
  | cons node others _ =>
    refine chain.imp_of_mem_imp fun first second _ member leadsTo => ?_
    refine narrows first second ?_ leadsTo
    rw [Cycle.mem_coe_iff, mem_cons]
    rcases mem_cons.mp member with same | later
    · exact .inl same
    · rcases mem_append.mp later with inside | last
      · exact .inr inside
      · exact .inl (mem_singleton.mp last)

theorem cycle_of_returns {node : Node} (returns : TransGen leads node node) :
    ∃ nodes : Cycle Node, node ∈ nodes ∧ Cycle.Chain leads nodes := by
  obtain ⟨before, way, closes⟩ := TransGen.tail'_iff.mp returns
  obtain ⟨others, chain, last⟩ := exists_isChain_cons_of_relationReflTransGen way
  refine ⟨(node :: others : List Node), Cycle.mem_coe_iff.mpr mem_cons_self, ?_⟩
  refine isChain_append.mpr ⟨chain, List.IsChain.singleton node,
    fun final isLast _ isNode => ?_⟩
  rw [getLast?_eq_some_getLast (cons_ne_nil node others), last] at isLast
  cases isLast
  cases isNode
  exact closes

end Cycles

section Absent

variable {edges : Node → List (Node × Option Label)} {start : Node}

/-- The nodes seen by a search that found nothing: nothing leads out of the new ones, and nothing
back to the start. -/
structure Closes (edges : Node → List (Node × Option Label)) (start : Node)
    (before after : List Node) : Prop where
  grows : before ⊆ after
  closed : ∀ node ∈ after, node ∉ before → ∀ target, Edge edges node target →
    target ∈ after ∧ target ≠ start

omit [DecidableEq Node] in
theorem closes_refl (visited : List Node) : Closes edges start visited visited :=
  ⟨Subset.refl _, fun _ member fresh => absurd member fresh⟩

theorem closes_trans {first second third : List Node} (earlier : Closes edges start first second)
    (later : Closes edges start second third) : Closes edges start first third := by
  refine ⟨Subset.trans earlier.grows later.grows, fun node member fresh target edge => ?_⟩
  by_cases old : node ∈ second
  · obtain ⟨seen, other⟩ := earlier.closed node old fresh target edge
    exact ⟨later.grows seen, other⟩
  · exact later.closed node member old target edge

def FindsNothing (edges : Node → List (Node × Option Label)) (start : Node)
    (explore : List Node → Node → Option (Found Node Label)) : Prop :=
  ∀ visited node found, start ∈ visited → explore visited node = some found →
    found.cycle = false →
      Closes edges start visited found.visited ∧ node ∈ found.visited ∧ node ≠ start

variable {explore : List Node → Node → Option (Found Node Label)} {visited : List Node}
  {found : Found Node Label}

theorem follow_nothing (explores : FindsNothing edges start explore)
    (remaining : List (Node × Option Label)) (started : start ∈ visited)
    (followed : followEdges explore remaining visited = some found)
    (nothing : found.cycle = false) :
    Closes edges start visited found.visited ∧
      ∀ edge ∈ remaining, edge.1 ∈ found.visited ∧ edge.1 ≠ start := by
  induction remaining generalizing visited with
  | nil =>
    cases followed
    exact ⟨closes_refl visited, fun _ => nofun⟩
  | cons first rest ih =>
    obtain ⟨target, label⟩ := first
    obtain ⟨inner, explored, continued⟩ := bind_eq_some_iff.mp followed
    split at continued
    · rename_i closed
      cases continued
      rw [closed] at nothing
      cases nothing
    · rename_i open_
      obtain ⟨closes, seen, other⟩ := explores visited target inner started explored
        (Bool.not_eq_true _ ▸ open_)
      obtain ⟨further, others⟩ := ih (closes.grows started) continued
      refine ⟨closes_trans closes further, fun edge member => ?_⟩
      rcases mem_cons.mp member with rfl | later
      · exact ⟨further.grows seen, other⟩
      · exact others edge later

theorem entered_nothing (explores : FindsNothing edges start explore) {node : Node}
    (started : start ∈ node :: visited)
    (followed : followEdges explore (edges node) (node :: visited) = some found)
    (nothing : found.cycle = false) :
    Closes edges start visited found.visited ∧ node ∈ found.visited := by
  obtain ⟨closes, others⟩ := follow_nothing explores (edges node) started followed nothing
  have seen := closes.grows mem_cons_self
  refine ⟨⟨Subset.trans (subset_cons_self node visited) closes.grows, ?_⟩, seen⟩
  intro other member fresh target edge
  by_cases same : other = node
  · obtain ⟨label, edgeMember⟩ := edge
    exact others (target, label) (same ▸ edgeMember)
  · exact closes.closed other member (fun old => (mem_cons.mp old).elim same fresh) target edge

theorem search_nothing (fuel : Nat) : FindsNothing edges start (search edges start fuel) := by
  induction fuel with
  | zero =>
    intro visited node found started searched nothing
    rw [search] at searched
    split at searched
    · rename_i old
      cases searched
      exact ⟨closes_refl visited, old, of_decide_eq_false nothing⟩
    · cases searched
  | succ fuel ih =>
    intro visited node found started searched nothing
    rw [search] at searched
    split at searched
    · rename_i old
      cases searched
      exact ⟨closes_refl visited, old, of_decide_eq_false nothing⟩
    · rename_i fresh
      obtain ⟨closes, seen⟩ :=
        entered_nothing ih (mem_cons_of_mem node started) searched nothing
      exact ⟨closes, seen, fun same => fresh (same ▸ started)⟩

/-- Where the search reports nothing, no cycle passes through the start. -/
theorem search_sound {fuel : Nat} (searched : search edges start fuel [] start = some found)
    (nothing : found.cycle = false) : ¬ TransGen (Edge edges) start start := by
  cases fuel with
  | zero => cases searched
  | succ fuel =>
    obtain ⟨closes, seen⟩ :=
      entered_nothing (search_nothing fuel) mem_cons_self searched nothing
    -- every node on a way from the start was seen, and none of its edges leads back
    have reached {node : Node} (way : TransGen (Edge edges) start node) :
        node ∈ found.visited ∧ node ≠ start := by
      induction way with
      | single edge => exact closes.closed start seen not_mem_nil _ edge
      | tail _ edge ih => exact closes.closed _ ih.1 not_mem_nil _ edge
    exact fun cycle => (reached cycle).2 rfl

end Absent

section Present

variable {edges : Node → List (Node × Option Label)} {start : Node}

/-- An edge without a label or with one of these. -/
def LabelledEdge (edges : Node → List (Node × Option Label)) (labels : List Label)
    (first second : Node) : Prop :=
  ∃ label : Option Label, (second, label) ∈ edges first ∧ ∀ value ∈ label, value ∈ labels

omit [DecidableEq Node] in
theorem labelled_mono {labels more : List Label} (within : labels ⊆ more) {first second : Node}
    (way : ReflTransGen (LabelledEdge edges labels) first second) :
    ReflTransGen (LabelledEdge edges more) first second :=
  ReflTransGen.mono (fun _ _ ⟨label, member, known⟩ =>
    ⟨label, member, fun value isLabel => within (known value isLabel)⟩) _ _ way

/-- A way to the goal, with the nodes it leaves and the labels on it, the last one first. -/
inductive Way (step : Node → Node → Option Label → Prop) (goal : Node) :
    List Node → Node → List Label → Prop
  | here : Way step goal [] goal []
  | onward {node target : Node} {label : Option Label} {nodes : List Node} {labels : List Label}
      (leads : step node target label) (rest : Way step goal nodes target labels) :
      Way step goal (node :: nodes) node (labels ++ label.toList)

def FirstEdge (edges : Node → List (Node × Option Label)) (node target : Node)
    (label : Option Label) : Prop :=
  (edges node).find? (fun edge => edge.1 = target) = some (target, label)

/-- A way along the first edges, through nodes that were not seen before. -/
def FindsWay (edges : Node → List (Node × Option Label)) (start : Node)
    (explore : List Node → Node → Option (Found Node Label)) : Prop :=
  ∀ visited node found, start ∈ visited → explore visited node = some found →
    found.cycle = true → ∃ nodes, Way (FirstEdge edges) start nodes node found.labels ∧
      nodes.Nodup ∧ ∀ other ∈ nodes, other ∉ visited

variable {found : Found Node Label}

theorem follow_way {explore : List Node → Node → Option (Found Node Label)}
    (explores : FindsWay edges start explore) (closes : FindsNothing edges start explore)
    {node : Node} (passed remaining : List (Node × Option Label))
    (split : edges node = passed ++ remaining) {visited : List Node} (started : start ∈ visited)
    (seen : ∀ edge ∈ passed, edge.1 ∈ visited ∧ edge.1 ≠ start)
    (followed : followEdges explore remaining visited = some found) (cycle : found.cycle = true) :
    ∃ nodes, Way (FirstEdge edges) start (node :: nodes) node found.labels ∧ nodes.Nodup ∧
      ∀ other ∈ nodes, other ∉ visited := by
  induction remaining generalizing passed visited with
  | nil =>
    cases followed
    cases cycle
  | cons first rest ih =>
    obtain ⟨target, label⟩ := first
    rw [followEdges] at followed
    obtain ⟨inner, explored, continued⟩ := bind_eq_some_iff.mp followed
    split at continued
    · rename_i closed
      cases continued
      obtain ⟨nodes, way, once, fresh⟩ := explores visited target inner started explored closed
      -- an edge passed before led to a node that is seen by now and is not the start
      have others : ∀ edge ∈ passed, edge.1 ≠ target := by
        rintro edge member rfl
        obtain ⟨old, notStart⟩ := seen edge member
        generalize inner.labels = labels at way
        cases way with
        | here => exact notStart rfl
        | onward => exact fresh _ mem_cons_self old
      have isFirst : FirstEdge edges node target label := by
        rw [FirstEdge, split, find?_append, find?_eq_none.mpr (by simpa using others)]
        simp
      exact ⟨nodes, .onward isFirst way, once, fresh⟩
    · rename_i open_
      obtain ⟨grown, reached, notStart⟩ := closes visited target inner started explored
        (Bool.not_eq_true _ ▸ open_)
      have seenNow : ∀ edge ∈ passed ++ [(target, label)],
          edge.1 ∈ inner.visited ∧ edge.1 ≠ start := by
        intro edge member
        rcases mem_append.mp member with earlier | last
        · exact ⟨grown.grows (seen edge earlier).1, (seen edge earlier).2⟩
        · rw [mem_singleton.mp last]
          exact ⟨reached, notStart⟩
      obtain ⟨nodes, way, once, fresh⟩ := ih _ (by rw [split, append_cons])
        (grown.grows started) seenNow continued
      exact ⟨nodes, way, once, fun other member old => fresh other member (grown.grows old)⟩

theorem search_way (fuel : Nat) : FindsWay edges start (search edges start fuel) := by
  induction fuel with
  | zero =>
    intro visited node found started searched cycle
    rw [search] at searched
    split at searched
    · cases searched
      obtain rfl := of_decide_eq_true cycle
      exact ⟨[], .here, nodup_nil, fun _ => nofun⟩
    · cases searched
  | succ fuel ih =>
    intro visited node found started searched cycle
    rw [search] at searched
    split at searched
    · cases searched
      obtain rfl := of_decide_eq_true cycle
      exact ⟨[], .here, nodup_nil, fun _ => nofun⟩
    · rename_i fresh
      obtain ⟨nodes, way, once, unseen⟩ := follow_way ih (search_nothing fuel) [] (edges node) rfl
        (mem_cons_of_mem _ started) (fun _ => nofun) searched cycle
      refine ⟨node :: nodes, way, nodup_cons.mpr
        ⟨fun member => unseen node member mem_cons_self, once⟩, fun other member old => ?_⟩
      rcases mem_cons.mp member with rfl | later
      · exact fresh old
      · exact unseen other later (mem_cons_of_mem _ old)

/-- The labels reported are those of a cycle through different nodes, along the first edge from each
to the next. -/
theorem search_path {fuel : Nat} (searched : search edges start fuel [] start = some found)
    (cycle : found.cycle = true) :
    ∃ nodes, Way (FirstEdge edges) start (start :: nodes) start found.labels ∧
      (start :: nodes).Nodup := by
  cases fuel with
  | zero => cases searched
  | succ fuel =>
    obtain ⟨nodes, way, once, unseen⟩ := follow_way (search_way fuel) (search_nothing fuel) []
      (edges start) rfl mem_cons_self (fun _ => nofun) searched cycle
    exact ⟨nodes, way, nodup_cons.mpr ⟨fun member => unseen start member mem_cons_self, once⟩⟩

theorem first_edge_labelled {node target : Node} {label : Option Label}
    (first : FirstEdge edges node target label) {labels : List Label} :
    LabelledEdge edges (labels ++ label.toList) node target :=
  ⟨label, mem_of_find?_eq_some first, fun _ isLabel =>
    mem_append_right _ (mem_toList.mpr isLabel)⟩

theorem way_labelled {goal node : Node} {nodes : List Node} {labels : List Label}
    (way : Way (FirstEdge edges) goal nodes node labels) :
    ReflTransGen (LabelledEdge edges labels) node goal ∧
      ∀ label ∈ labels, ∃ first second, (second, some label) ∈ edges first := by
  induction way with
  | here => exact ⟨ReflTransGen.refl, fun _ => nofun⟩
  | @onward node target label nodes labels first rest ih =>
    refine ⟨ReflTransGen.head (first_edge_labelled first)
      (labelled_mono (subset_append_left _ _) ih.1), fun value isLabel => ?_⟩
    rcases mem_append.mp isLabel with earlier | last
    · exact ih.2 value earlier
    · obtain rfl := mem_def.mp (mem_toList.mp last)
      exact ⟨node, target, mem_of_find?_eq_some first⟩

theorem search_cycle {fuel : Nat} (searched : search edges start fuel [] start = some found)
    (cycle : found.cycle = true) :
    TransGen (LabelledEdge edges found.labels) start start ∧
      ∀ label ∈ found.labels, ∃ first second, (second, some label) ∈ edges first := by
  obtain ⟨nodes, way, -⟩ := search_path searched cycle
  refine ⟨?_, (way_labelled way).2⟩
  generalize found.labels = labels at way
  cases way with
  | onward first rest =>
    exact TransGen.head' (first_edge_labelled first)
      (labelled_mono (subset_append_left _ _) (way_labelled rest).1)

end Present

section Fuel

variable {edges : Node → List (Node × Option Label)} {start : Node}

def Ends (universe_ : Finset Node) (fuel : Nat)
    (explore : List Node → Node → Option (Found Node Label)) : Prop :=
  ∀ visited node, node ∈ universe_ → (universe_ \ visited.toFinset).card ≤ fuel →
    ∃ found, explore visited node = some found ∧ visited ⊆ found.visited

theorem follow_ends {universe_ : Finset Node} {fuel : Nat}
    {explore : List Node → Node → Option (Found Node Label)}
    (explores : Ends universe_ fuel explore) (remaining : List (Node × Option Label))
    (within : ∀ edge ∈ remaining, edge.1 ∈ universe_) {visited : List Node}
    (enough : (universe_ \ visited.toFinset).card ≤ fuel) :
    ∃ found, followEdges explore remaining visited = some found ∧ visited ⊆ found.visited := by
  induction remaining generalizing visited with
  | nil => exact ⟨_, rfl, Subset.refl _⟩
  | cons first rest ih =>
    obtain ⟨inner, explored, grows⟩ :=
      explores visited first.1 (within first mem_cons_self) enough
    rw [followEdges, explored, bind_some]
    split
    · exact ⟨_, rfl, grows⟩
    · have fewer : (universe_ \ inner.visited.toFinset).card ≤ fuel := by
        refine le_trans (Finset.card_le_card ?_) enough
        refine Finset.sdiff_subset_sdiff (Finset.Subset.refl _) fun node member => ?_
        exact mem_toFinset.mpr (grows (mem_toFinset.mp member))
      obtain ⟨found, followed, further⟩ :=
        ih (fun edge member => within edge (mem_cons_of_mem _ member)) fewer
      exact ⟨found, followed, Subset.trans grows further⟩

theorem search_ends {universe_ : Finset Node}
    (within : ∀ node ∈ universe_, ∀ edge ∈ edges node, edge.1 ∈ universe_) (fuel : Nat) :
    Ends universe_ fuel (search edges start fuel) := by
  induction fuel with
  | zero =>
    intro visited node member enough
    have all : node ∈ visited := by
      have none := Finset.card_eq_zero.mp (Nat.le_zero.mp enough)
      exact mem_toFinset.mp (Finset.sdiff_eq_empty_iff_subset.mp none member)
    rw [search, if_pos all]
    exact ⟨_, rfl, Subset.refl _⟩
  | succ fuel ih =>
    intro visited node member enough
    rw [search]
    split
    · exact ⟨_, rfl, Subset.refl _⟩
    · rename_i fresh
      have entered : (universe_ \ (node :: visited).toFinset).card ≤ fuel := by
        rw [toFinset_cons, Finset.sdiff_insert, Finset.card_erase_of_mem]
        · omega
        · exact Finset.mem_sdiff.mpr ⟨member, fun old => fresh (mem_toFinset.mp old)⟩
      obtain ⟨found, followed, grows⟩ := follow_ends ih (edges node) (within node member) entered
      exact ⟨found, followed, Subset.trans (subset_cons_self node visited) grows⟩

end Fuel

end FortressQL.Lib.CycleSearch
