import MixedInteger.Proofs.Expression.Reachability

/-! # The moves of the search for a subtree

A recorded search does what the search for a subtree does, with every access to its table
checked and every move written down (`Graph.map_fst_recordedSubtree`). What has been put on
the stack is what is marked in the table, and it has been taken off or still waits, which
every move keeps (`RecordedSearch.Tally`). So each index below the root is put on the stack
once and taken off once, and no move leaves the table (`Graph.subtree_search`).
-/

namespace MixedInteger

variable {K : Type}

/-- What the search for a subtree does to its table and to its stack. -/
inductive SearchMove where
  /-- The table is looked up at an index. -/
  | look (idx : NodeIdx)
  /-- An index is marked in the table. -/
  | mark (idx : NodeIdx)
  /-- An index is put on the stack. -/
  | put (idx : NodeIdx)
  /-- An index is taken off the stack. -/
  | take (idx : NodeIdx)
  deriving DecidableEq, Repr

namespace SearchMove

/-- The index that a move is about. -/
def idx : SearchMove → NodeIdx
  | look idx | mark idx | put idx | take idx => idx

/-- The index that a move puts on the stack. -/
@[simp] def put? : SearchMove → Option NodeIdx
  | put idx => some idx
  | _ => none

/-- The index that a move takes off the stack. -/
@[simp] def taken? : SearchMove → Option NodeIdx
  | take idx => some idx
  | _ => none

/-- The indices that are put on the stack, in order. -/
def puts (moves : List SearchMove) : List NodeIdx := moves.filterMap put?

/-- The indices that are taken off the stack, in order. -/
def takes (moves : List SearchMove) : List NodeIdx := moves.filterMap taken?

/-- A move inside the table may be added to moves inside it. -/
theorem idx_lt_concat {moves : List SearchMove} {last : SearchMove} {size : Nat}
    (earlier : ∀ move ∈ moves, move.idx < size) (added : last.idx < size) :
    ∀ move ∈ moves ++ [last], move.idx < size := by
  rw [List.forall_mem_append, List.forall_mem_singleton]
  exact ⟨earlier, added⟩

end SearchMove

/-- A search and the moves that have led to it, the earliest first. -/
structure RecordedSearch where
  search : Search
  moves : List SearchMove

namespace RecordedSearch

open SearchMove

/-- The search before its first move, with a table for a number of indices. -/
def blank (size : Nat) : RecordedSearch := ⟨⟨Array.replicate size false, []⟩, []⟩

/-- Look an index up in the table, which has to have a place for it. -/
def look (recorded : RecordedSearch) (idx : NodeIdx) : Except Violation (Bool × RecordedSearch) :=
  match recorded.search.met[idx]? with
  | some known => .ok (known, { recorded with moves := recorded.moves ++ [.look idx] })
  | none => .error (.indexOutOfBounds recorded.search.met.size idx)

/-- Mark an index in the table, which has to have a place for it. -/
def mark (recorded : RecordedSearch) (idx : NodeIdx) : Except Violation RecordedSearch :=
  if idx < recorded.search.met.size then
    .ok ⟨{ recorded.search with met := recorded.search.met.setIfInBounds idx true },
      recorded.moves ++ [.mark idx]⟩
  else .error (.indexOutOfBounds recorded.search.met.size idx)

/-- Put an index on the stack. -/
def put (recorded : RecordedSearch) (idx : NodeIdx) : RecordedSearch :=
  ⟨{ recorded.search with waiting := idx :: recorded.search.waiting },
    recorded.moves ++ [.put idx]⟩

/-- Take the latest index off the stack, if there is one. -/
def take? (recorded : RecordedSearch) : Option (NodeIdx × RecordedSearch) :=
  match recorded.search.waiting with
  | [] => none
  | idx :: waiting =>
      some (idx, ⟨{ recorded.search with waiting }, recorded.moves ++ [.take idx]⟩)

/-- Mark an index and put it on the stack. -/
def enter (recorded : RecordedSearch) (idx : NodeIdx) : Except Violation RecordedSearch := do
  let marked ← recorded.mark idx
  return marked.put idx

/-- Meet an index, which is put on the stack if it is new. -/
def meet (recorded : RecordedSearch) (idx : NodeIdx) : Except Violation RecordedSearch := do
  let (known, looked) ← recorded.look idx
  if known then return looked else looked.enter idx

/-! ## The search that is recorded -/

/-- Entering an index marks it and puts it on the stack. -/
theorem map_search_enter {recorded : RecordedSearch} {idx : NodeIdx}
    (inside : idx < recorded.search.met.size) :
    (recorded.enter idx).map search = .ok ⟨recorded.search.met.setIfInBounds idx true,
      idx :: recorded.search.waiting⟩ := by
  rw [enter, mark, if_pos inside]
  rfl

/-- Meeting an index changes the search as it does without a record. -/
theorem map_search_meet (recorded : RecordedSearch) (idx : NodeIdx) :
    (recorded.meet idx).map search = recorded.search.meet idx := by
  unfold meet look Search.meet
  cases known : recorded.search.met[idx]? with
  | none => rfl
  | some entry =>
      cases entry with
      | true => rfl
      | false => exact map_search_enter (Array.getElem?_eq_some_iff.mp known).1

/-- Meeting indices in turn is recorded faithfully. -/
theorem map_search_foldlM_meet (indices : List NodeIdx) (recorded : RecordedSearch) :
    (indices.foldlM meet recorded).map search = indices.foldlM Search.meet recorded.search :=
  Outcome.map_foldlM map_search_meet indices recorded

/-- A recorded search starts where the search starts. -/
theorem map_search_start (root : NodeIdx) :
    ((blank (root + 1)).enter root).map search = .ok (Search.start root) :=
  map_search_enter (by simp [blank])

/-- The index on top of the stack is taken. -/
theorem take?_eq_some_iff {recorded taken : RecordedSearch} {idx : NodeIdx} :
    recorded.take? = some (idx, taken) ↔ recorded.search.waiting = idx :: taken.search.waiting ∧
      taken.search.met = recorded.search.met ∧ taken.moves = recorded.moves ++ [.take idx] := by
  unfold take?
  cases recorded.search.waiting with
  | nil => simp
  | cons first waiting =>
      obtain ⟨⟨met, rest⟩, moves⟩ := taken
      simp only [Option.some.injEq, Prod.mk.injEq, mk.injEq, Search.mk.injEq, List.cons.injEq]
      grind

/-- There is nothing to take when nothing waits. -/
theorem take?_eq_none_iff {recorded : RecordedSearch} :
    recorded.take? = none ↔ recorded.search.waiting = [] := by
  unfold take?
  cases recorded.search.waiting <;> simp

/-- Fewer indices are unexplored after a round of the search. -/
theorem unexplored_of_round {recorded taken next : RecordedSearch} {idx : NodeIdx}
    {children : List NodeIdx} (takes : recorded.take? = some (idx, taken))
    (met : children.foldlM meet taken = .ok next) :
    next.search.unexplored < recorded.search.unexplored := by
  have same := map_search_foldlM_meet children taken
  rw [met] at same
  obtain ⟨waits, table, -⟩ := take?_eq_some_iff.mp takes
  rw [Search.unexplored_foldlM_meet same.symm, Search.unexplored, Search.unexplored, waits, table,
    List.length_cons]
  omega

/-! ## What every move keeps -/

variable {recorded next taken : RecordedSearch} {size : Nat} {idx : NodeIdx}

/-- The account of the moves of a search over a table of a certain size. -/
structure Tally (size : Nat) (recorded : RecordedSearch) : Prop where
  size_eq : recorded.search.met.size = size
  /-- No move leaves the table. -/
  idx_lt : ∀ move ∈ recorded.moves, move.idx < size
  /-- What is marked has been put on the stack, and nothing else has. -/
  mem_puts_iff : ∀ idx, idx ∈ puts recorded.moves ↔ recorded.search.met[idx]? = some true
  /-- Nothing is put on the stack twice. -/
  puts_nodup : (puts recorded.moves).Nodup
  /-- What has been put on the stack has been taken off or still waits. -/
  balanced : (puts recorded.moves).Perm (takes recorded.moves ++ recorded.search.waiting)

/-- A search that has done nothing is in order. -/
theorem tally_blank (size : Nat) : Tally size (blank size) where
  size_eq := Array.size_replicate
  idx_lt := nofun
  mem_puts_iff idx := by simp [blank, puts, Array.getElem?_replicate]
  puts_nodup := List.nodup_nil
  balanced := .refl _

/-- Looking an index up changes nothing but the record. -/
theorem Tally.look {known : Bool} (tally : recorded.Tally size)
    (looked : recorded.look idx = .ok (known, next)) :
    next.Tally size ∧ next.search = recorded.search ∧ recorded.search.met[idx]? = some known := by
  unfold RecordedSearch.look at looked
  split at looked
  · rename_i found
    cases looked
    have inside : idx < size := tally.size_eq ▸ (Array.getElem?_eq_some_iff.mp found).1
    have samePuts : puts (recorded.moves ++ [.look idx]) = puts recorded.moves := by simp [puts]
    have sameTakes : takes (recorded.moves ++ [.look idx]) = takes recorded.moves := by simp [takes]
    exact ⟨{ tally with
      idx_lt := idx_lt_concat tally.idx_lt inside
      mem_puts_iff := samePuts ▸ tally.mem_puts_iff
      puts_nodup := samePuts ▸ tally.puts_nodup
      balanced := samePuts ▸ sameTakes ▸ tally.balanced }, rfl, found⟩
  · cases looked

/-- An index that is entered has not been put on the stack before. -/
theorem Tally.enter (tally : recorded.Tally size)
    (new : recorded.search.met[idx]? = some false) (entered : recorded.enter idx = .ok next) :
    next.Tally size := by
  have inside := (Array.getElem?_eq_some_iff.mp new).1
  rw [RecordedSearch.enter, mark, if_pos inside] at entered
  cases entered
  have bound : idx < size := tally.size_eq ▸ inside
  have fresh : idx ∉ puts recorded.moves := by
    rw [tally.mem_puts_iff, new]
    decide
  have morePuts : puts (recorded.moves ++ [.mark idx] ++ [.put idx]) =
      puts recorded.moves ++ [idx] := by simp [puts, List.filterMap_cons]
  have sameTakes : takes (recorded.moves ++ [.mark idx] ++ [.put idx]) =
      takes recorded.moves := by simp [takes]
  refine ⟨Array.size_setIfInBounds.trans tally.size_eq,
    idx_lt_concat (idx_lt_concat tally.idx_lt bound) bound, fun query => ?_, ?_, ?_⟩
  · change query ∈ puts (recorded.moves ++ [.mark idx] ++ [.put idx]) ↔
      (recorded.search.met.setIfInBounds idx true)[query]? = some true
    rw [morePuts, List.mem_append, List.mem_singleton, tally.mem_puts_iff]
    by_cases same : query = idx
    · subst same
      simp only [Array.getElem?_setIfInBounds_self, inside, ↓reduceIte, or_true]
    · simp only [Array.getElem?_setIfInBounds_ne (Ne.symm same), same, or_false]
  · change (puts (recorded.moves ++ [.mark idx] ++ [.put idx])).Nodup
    rw [morePuts]
    exact List.nodup_append.mpr ⟨tally.puts_nodup, List.pairwise_singleton _ idx, by
      rintro earlier member _ last rfl
      exact fresh (List.mem_singleton.mp last ▸ member)⟩
  · change (puts (recorded.moves ++ [.mark idx] ++ [.put idx])).Perm
      (takes (recorded.moves ++ [.mark idx] ++ [.put idx]) ++ idx :: recorded.search.waiting)
    rw [morePuts, sameTakes]
    exact (List.perm_append_singleton idx _).trans
      ((tally.balanced.cons idx).trans List.perm_middle.symm)

/-- Meeting a child keeps a search in order, whether or not it was met before. -/
theorem Tally.meet (tally : recorded.Tally size) (met : recorded.meet idx = .ok next) :
    next.Tally size := by
  obtain ⟨⟨known, looked⟩, found, met⟩ := Outcome.bind_eq_ok_iff.mp met
  obtain ⟨kept, same, entry⟩ := tally.look found
  cases known with
  | true =>
      cases met
      exact kept
  | false => exact kept.enter (same ▸ entry) met

/-- Meeting children in turn keeps a search in order. -/
theorem Tally.foldlM_meet {indices : List NodeIdx} (tally : recorded.Tally size)
    (met : indices.foldlM RecordedSearch.meet recorded = .ok next) : next.Tally size := by
  induction indices generalizing recorded with
  | nil =>
      cases met
      exact tally
  | cons idx rest ih =>
      obtain ⟨middle, first, later⟩ := Outcome.bind_eq_ok_iff.mp met
      exact ih (tally.meet first) later

/-- What is taken off the stack has been put there. -/
theorem Tally.take (tally : recorded.Tally size) (took : recorded.take? = some (idx, taken)) :
    taken.Tally size := by
  obtain ⟨waits, table, moves⟩ := take?_eq_some_iff.mp took
  have balanced := tally.balanced
  rw [waits] at balanced
  have held : idx ∈ puts recorded.moves := balanced.mem_iff.mpr (by simp)
  have inside : idx < size :=
    tally.size_eq ▸ (Array.getElem?_eq_some_iff.mp ((tally.mem_puts_iff idx).mp held)).1
  have samePuts : puts taken.moves = puts recorded.moves := by simp [moves, puts]
  have moreTakes : takes taken.moves = takes recorded.moves ++ [idx] := by simp [moves, takes]
  refine ⟨table ▸ tally.size_eq, moves ▸ idx_lt_concat tally.idx_lt inside, ?_,
    samePuts ▸ tally.puts_nodup, ?_⟩
  · rw [samePuts, table]
    exact tally.mem_puts_iff
  · rw [samePuts, moreTakes, List.append_assoc]
    exact balanced

end RecordedSearch

namespace Graph

open RecordedSearch SearchMove

/-- Explore every waiting index, and what it is computed from, with a record. -/
def recordedExplore (graph : Graph K) (recorded : RecordedSearch) :
    Except Violation RecordedSearch :=
  match takes : recorded.take? with
  | none => .ok recorded
  | some (idx, taken) =>
      match graph.node idx with
      | .error broken => .error broken
      | .ok node =>
          match met : node.children.foldlM RecordedSearch.meet taken with
          | .error broken => .error broken
          | .ok next =>
              have : next.search.unexplored < recorded.search.unexplored :=
                unexplored_of_round takes met
              graph.recordedExplore next
termination_by recorded.search.unexplored

/-- The indices that a root is computed from, and the moves by which they are found. -/
def recordedSubtree (graph : Graph K) (root : NodeIdx) :
    Except Violation (List NodeIdx × List SearchMove) := do
  let _ ← graph.node root
  let started ← (blank (root + 1)).enter root
  let searched ← graph.recordedExplore started
  let met := searched.search.met
  return ((List.range met.size).filter fun idx => met.getD idx false, searched.moves)

/-- A search with nothing waiting is finished. -/
theorem explore_of_finished (graph : Graph K) {search : Search} (finished : search.waiting = []) :
    graph.explore search = .ok search.met := by
  rw [explore]
  split
  · rfl
  · rename_i waits
    cases finished.symm.trans waits

/-- A round of the search meets the children of an index and goes on. -/
theorem explore_of_waits (graph : Graph K) {search : Search} {idx : NodeIdx}
    {waiting : List NodeIdx} (waits : search.waiting = idx :: waiting) :
    graph.explore search = graph.node idx >>= fun node =>
      node.children.foldlM Search.meet ⟨search.met, waiting⟩ >>= graph.explore := by
  rw [explore]
  split
  · rename_i finished
    cases finished.symm.trans waits
  · rename_i first rest waits'
    cases waits.symm.trans waits'
    cases graph.node idx with
    | error broken => rfl
    | ok node =>
        rw [Outcome.ok_bind]
        dsimp only
        split <;> rename_i met <;> rw [met] <;> rfl

/-- A recorded search with nothing to take is finished. -/
theorem recordedExplore_of_nothing {graph : Graph K} {recorded : RecordedSearch}
    (nothing : recorded.take? = none) : graph.recordedExplore recorded = .ok recorded := by
  rw [recordedExplore]
  split
  · rfl
  · rename_i took
    cases nothing.symm.trans took

/-- A round of the recorded search. -/
theorem recordedExplore_of_take {graph : Graph K} {recorded taken : RecordedSearch}
    {idx : NodeIdx} (took : recorded.take? = some (idx, taken)) :
    graph.recordedExplore recorded = graph.node idx >>= fun node =>
      node.children.foldlM RecordedSearch.meet taken >>= graph.recordedExplore := by
  rw [recordedExplore]
  split
  · rename_i nothing
    cases nothing.symm.trans took
  · rename_i took'
    cases took.symm.trans took'
    cases graph.node idx with
    | error broken => rfl
    | ok node =>
        rw [Outcome.ok_bind]
        dsimp only
        split <;> rename_i met <;> rw [met] <;> rfl

/-- The table is filled as it is without a record. -/
theorem map_met_recordedExplore (graph : Graph K) (recorded : RecordedSearch) :
    (graph.recordedExplore recorded).map (·.search.met) = graph.explore recorded.search := by
  fun_induction recordedExplore graph recorded with
  | case1 recorded nothing =>
      exact (graph.explore_of_finished (take?_eq_none_iff.mp nothing)).symm
  | case2 recorded idx taken takes broken absent =>
      rw [graph.explore_of_waits (take?_eq_some_iff.mp takes).1, absent]
      rfl
  | case3 recorded idx taken takes node held broken failed =>
      obtain ⟨waits, table, -⟩ := take?_eq_some_iff.mp takes
      have same := map_search_foldlM_meet node.children taken
      rw [failed] at same
      rw [graph.explore_of_waits waits, held, Outcome.ok_bind, ← table, ← same]
      rfl
  | case4 recorded idx taken takes node held next met _ ih =>
      obtain ⟨waits, table, -⟩ := take?_eq_some_iff.mp takes
      have same := map_search_foldlM_meet node.children taken
      rw [met] at same
      rw [graph.explore_of_waits waits, held, Outcome.ok_bind, ← table, ← same]
      exact ih

/-- At the end of the search the account is kept and nothing waits. -/
theorem tally_recordedExplore {graph : Graph K} {recorded final : RecordedSearch} {size : Nat}
    (tally : recorded.Tally size) (searched : graph.recordedExplore recorded = .ok final) :
    final.Tally size ∧ final.search.waiting = [] := by
  fun_induction recordedExplore graph recorded with
  | case1 recorded nothing =>
      cases searched
      exact ⟨tally, take?_eq_none_iff.mp nothing⟩
  | case2 => cases searched
  | case3 => cases searched
  | case4 recorded idx taken took node held next met _ ih =>
      exact ih ((tally.take took).foldlM_meet met) searched

/-- What is found is found without a record. -/
theorem map_fst_recordedSubtree (graph : Graph K) (root : NodeIdx) :
    (graph.recordedSubtree root).map Prod.fst = graph.subtree root := by
  unfold recordedSubtree subtree
  cases graph.node root with
  | error broken => rfl
  | ok node =>
      have started := map_search_start root
      cases entered : (blank (root + 1)).enter root with
      | error broken =>
          rw [entered] at started
          cases started
      | ok recorded =>
          rw [entered] at started
          have searched := graph.map_met_recordedExplore recorded
          rw [Except.ok.inj started] at searched
          rw [Outcome.ok_bind, Outcome.ok_bind, ← searched]
          cases graph.recordedExplore recorded <;> rfl

/-- Whatever is found has been put on the stack once and taken off once, inside the table. -/
theorem perm_of_recordedSubtree {graph : Graph K} {root : NodeIdx} {order : List NodeIdx}
    {moves : List SearchMove} (found : graph.recordedSubtree root = .ok (order, moves)) :
    (puts moves).Perm order ∧ (takes moves).Perm order ∧
      ∀ move ∈ moves, move.idx < root + 1 := by
  obtain ⟨node, -, found⟩ := Outcome.bind_eq_ok_iff.mp found
  obtain ⟨started, entered, found⟩ := Outcome.bind_eq_ok_iff.mp found
  obtain ⟨final, searched, found⟩ := Outcome.bind_eq_ok_iff.mp found
  cases found
  have unmarked : (blank (root + 1)).search.met[root]? = some false := by simp [blank]
  have initially := (tally_blank (root + 1)).enter unmarked entered
  obtain ⟨tally, finished⟩ := tally_recordedExplore initially searched
  have listed : (puts final.moves).Perm ((List.range final.search.met.size).filter fun idx =>
      final.search.met.getD idx false) := by
    refine (List.perm_ext_iff_of_nodup tally.puts_nodup (List.nodup_range.filter _)).mpr
      fun idx => ?_
    rw [tally.mem_puts_iff, Search.mem_marked_iff]
  have balanced := tally.balanced
  rw [finished, List.append_nil] at balanced
  exact ⟨listed, balanced.symm.trans listed, tally.idx_lt⟩

/-- **The subtree of a root is what can be reached from it.** In every graph that insertions
build, the search below a root of the graph ends and lists, in strictly ascending order and
with the root as the last one, exactly the indices that can be reached from the root through
children. The list is closed under children, and every child of a listed node comes before
it. On the way each of these indices is put on the stack once and taken off once, and the
table, which has an entry for each index up to the root, is looked up and marked only inside. -/
theorem subtree_search {graph : Graph K} (built : graph.Built) {root : NodeIdx}
    (inside : root < graph.size) :
    ∃ order moves, graph.subtree root = .ok order ∧
      graph.recordedSubtree root = .ok (order, moves) ∧
      order.Pairwise (· < ·) ∧
      (∀ idx, idx ∈ order ↔ graph.Reaches root idx) ∧
      order.getLast? = some root ∧
      (∀ parent ∈ order, ∀ child, graph.HasChild parent child → child ∈ order) ∧
      (∀ before parent after, order = before ++ parent :: after →
        ∀ child, graph.HasChild parent child → child ∈ before) ∧
      (puts moves).Nodup ∧ (puts moves).Perm order ∧ (takes moves).Perm order ∧
      ∀ move ∈ moves, move.idx < root + 1 := by
  have wellFormed := built.wellFormed
  obtain ⟨order, found, valid⟩ := subtree_spec wellFormed inside
  have recorded := graph.map_fst_recordedSubtree root
  rw [found] at recorded
  obtain ⟨moves, traced⟩ : ∃ moves, graph.recordedSubtree root = .ok (order, moves) := by
    cases searched : graph.recordedSubtree root with
    | error broken => exact nomatch searched ▸ recorded
    | ok answer =>
        rw [searched] at recorded
        cases recorded
        exact ⟨answer.2, rfl⟩
  obtain ⟨putOnce, takenOnce, bounded⟩ := perm_of_recordedSubtree traced
  have distinct : order.Nodup := valid.ascending.imp Nat.ne_of_lt
  refine ⟨order, moves, found, traced, valid.ascending, valid.mem_iff,
    valid.getLast?_eq wellFormed, fun parent listed child isChild => ?_,
    fun before parent after split child isChild => ?_,
    putOnce.nodup_iff.mpr distinct, putOnce, takenOnce, bounded⟩
  · exact (valid.mem_iff child).mpr (((valid.mem_iff parent).mp listed).tail isChild)
  · obtain ⟨node, held, member⟩ := isChild
    exact valid.child_mem_before wellFormed split held member

/-- The graph of `x0 * x0 + x0`, with a constant that is no part of it. -/
def squareAndSelf : Graph Float where
  id := ⟨0, 0⟩
  nodes := #[
    { uid := ⟨0⟩, idx := some 0, graph := some ⟨0, 0⟩, kind := .leaf 0 },
    { uid := ⟨1⟩, idx := some 1, graph := some ⟨0, 0⟩, kind := .constant 9.0 },
    { uid := ⟨2⟩, idx := some 2, graph := some ⟨0, 0⟩, kind := .operator .product [0, 0] },
    { uid := ⟨3⟩, idx := some 3, graph := some ⟨0, 0⟩, kind := .operator .sum [2, 0] }]
  depths := #[0, 1, 1, 2]

/-- The example is built by insertions. -/
theorem built_squareAndSelf : squareAndSelf.Built := by
  let leaf : Node Float := { uid := ⟨0⟩, kind := .leaf 0 }
  let apart : Node Float := { uid := ⟨1⟩, kind := .constant 9.0 }
  let square : Node Float := { uid := ⟨2⟩, kind := .operator .product [0, 0] }
  let root : Node Float := { uid := ⟨3⟩, kind := .operator .sum [2, 0] }
  have first : Built _ := (Built.empty ⟨0, 0⟩ none).insert (rfl : leaf.kind.checkArity = _) rfl
  have second : Built _ := first.insert (rfl : apart.kind.checkArity = _) rfl
  have third : Built _ := second.insert (rfl : square.kind.checkArity = _) rfl
  exact third.insert (rfl : root.kind.checkArity = _) rfl

/-- The square is met before its operand, which the square and the sum share. -/
theorem recordedSubtree_squareAndSelf :
    squareAndSelf.recordedSubtree 3 = .ok ([0, 2, 3],
      [.mark 3, .put 3, .take 3, .look 2, .mark 2, .put 2, .look 0, .mark 0, .put 0,
        .take 0, .take 2, .look 0, .look 0]) := by
  have started : squareAndSelf.recordedSubtree 3 = (squareAndSelf.recordedExplore _ >>= _) := rfl
  rw [started, recordedExplore_of_take rfl]
  change (squareAndSelf.recordedExplore _ >>= _) = _
  rw [recordedExplore_of_take rfl]
  change (squareAndSelf.recordedExplore _ >>= _) = _
  rw [recordedExplore_of_take rfl]
  change (squareAndSelf.recordedExplore _ >>= _) = _
  rw [recordedExplore_of_nothing rfl]
  rfl

/-- The shared operand is listed first and put on the stack once, and the constant is not met. -/
theorem subtree_search_squareAndSelf :
    squareAndSelf.Built ∧ 3 < squareAndSelf.size ∧
      squareAndSelf.subtree 3 = .ok [0, 2, 3] ∧
      squareAndSelf.Reaches 3 0 ∧ ¬ squareAndSelf.Reaches 3 1 ∧
      ∃ moves, squareAndSelf.recordedSubtree 3 = .ok ([0, 2, 3], moves) ∧
        (puts moves).Perm [0, 2, 3] ∧ puts moves = [3, 2, 0] := by
  obtain ⟨order, moves, found, traced, -, reached, -, -, -, -, putOnce, -⟩ :=
    subtree_search built_squareAndSelf (by decide : 3 < squareAndSelf.size)
  cases traced.symm.trans recordedSubtree_squareAndSelf
  exact ⟨built_squareAndSelf, by decide, found, (reached 0).mp (by decide),
    fun reaches => absurd ((reached 1).mpr reaches) (by decide), _, traced, putOnce, rfl⟩

end Graph

end MixedInteger
