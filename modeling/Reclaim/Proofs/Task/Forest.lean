import Mathlib.Data.List.Basic
import Reclaim.Task.Basic

/-! Forests of tasks. A task stands above the tasks that it posts. Level order goes through a forest level by
level, from the roots down; a queue that each task leaves at its head and its posts join at its end goes
through the forest in that order. -/

namespace Reclaim

namespace Task

mutual

def tree : Task → List Task
  | .make id posts foreground runtime terminates fails =>
      .make id posts foreground runtime terminates fails :: forest posts

def forest : List Task → List Task
  | [] => []
  | task :: rest => task.tree ++ forest rest

end

def level : Nat → List Task → List Task
  | 0, roots => roots
  | depth + 1, roots => level depth (roots.flatMap posts)

def levelOrder (roots : List Task) : List Task :=
  (List.range (weights roots)).flatMap fun depth => level depth roots

theorem forest_cons (task : Task) (rest : List Task) :
    forest (task :: rest) = task :: (forest task.posts ++ forest rest) := by
  cases task with
  | make id posts foreground runtime terminates fails => rfl

theorem forest_append (roots more : List Task) :
    forest (roots ++ more) = forest roots ++ forest more := by
  induction roots with
  | nil => rfl
  | cons task rest ih =>
      rw [List.cons_append, forest_cons, forest_cons, ih, List.cons_append, List.append_assoc]

theorem weights_posts (roots : List Task) :
    weights roots = roots.length + weights (roots.flatMap posts) := by
  induction roots with
  | nil => rfl
  | cons task rest ih =>
      rw [weights, weight_eq, ih, List.flatMap_cons, weights_append, List.length_cons]
      omega

theorem weights_posts_lt {roots : List Task} (some : roots ≠ []) :
    weights (roots.flatMap posts) < weights roots := by
  have total := weights_posts roots
  have length := List.length_pos_of_ne_nil some
  omega

theorem level_nil (depth : Nat) : level depth [] = [] := by
  induction depth with
  | zero => rfl
  | succ depth ih => exact ih

theorem level_beyond {roots : List Task} {depth : Nat} (deep : weights roots ≤ depth) :
    level depth roots = [] := by
  induction depth generalizing roots with
  | zero =>
      have total := weights_posts roots
      have none : roots = [] := List.eq_nil_of_length_eq_zero (by omega)
      exact none
  | succ depth ih =>
      by_cases none : roots = []
      · rw [none, level_nil]
      · have lighter := weights_posts_lt none
        exact ih (by omega)

theorem levels_enough {roots : List Task} {count : Nat} (enough : weights roots ≤ count) :
    ((List.range count).flatMap fun depth => level depth roots) = levelOrder roots := by
  obtain ⟨extra, rfl⟩ := Nat.exists_eq_add_of_le enough
  have beyond : ((List.range extra).map (weights roots + ·)).flatMap
      (fun depth => level depth roots) = [] := by
    rw [List.flatMap_eq_nil_iff]
    intro depth member
    obtain ⟨more, _, rfl⟩ := List.mem_map.mp member
    exact level_beyond (Nat.le_add_right _ _)
  rw [List.range_add, List.flatMap_append, beyond, List.append_nil]
  rfl

theorem levelOrder_eq (roots : List Task) :
    levelOrder roots = roots ++ levelOrder (roots.flatMap posts) := by
  by_cases none : roots = []
  · rw [none]
    rfl
  · have lighter := weights_posts_lt none
    obtain ⟨count, same⟩ := Nat.exists_eq_add_one.mpr (Nat.zero_lt_of_lt lighter)
    rw [levelOrder, same, List.range_succ_eq_map, List.flatMap_cons, List.flatMap_map,
      ← levels_enough (show weights (roots.flatMap posts) ≤ count by omega)]
    rfl

-- The roots are taken one by one, so the induction is on forests that begin with the roots that are left and
-- end with what the others have posted. What they weigh falls with each level.
theorem levelOrder_append (roots more : List Task) :
    levelOrder (roots ++ more) = roots ++ levelOrder (more ++ roots.flatMap posts) := by
  generalize size : weights (roots ++ more) = bound
  induction bound using Nat.strongRecOn generalizing roots more with
  | ind bound ih =>
      by_cases none : roots ++ more = []
      · obtain ⟨rfl, rfl⟩ := List.append_eq_nil_iff.mp none
        rfl
      · have lighter := weights_posts_lt none
        rw [size, List.flatMap_append] at lighter
        have below := ih _ lighter (roots.flatMap posts) (more.flatMap posts) rfl
        rw [levelOrder_eq, List.flatMap_append, below, levelOrder_eq (more ++ roots.flatMap posts),
          List.flatMap_append]
        simp only [List.append_assoc]

/-- The task at the head is taken, and its posts join at the end. -/
theorem levelOrder_cons (task : Task) (rest : List Task) :
    levelOrder (task :: rest) = task :: levelOrder (rest ++ task.posts) := by
  have split := levelOrder_append [task] rest
  rwa [List.flatMap_singleton] at split

/-- Below the roots, level order has what the tasks before have posted. -/
theorem levelOrder_posts (roots : List Task) :
    roots ++ (levelOrder roots).flatMap posts = levelOrder roots := by
  generalize size : weights roots = bound
  induction bound using Nat.strongRecOn generalizing roots with
  | ind bound ih =>
      by_cases none : roots = []
      · rw [none]
        rfl
      · have below := ih _ (size ▸ weights_posts_lt none) (roots.flatMap posts) rfl
        rw [levelOrder_eq, List.flatMap_append, below]

theorem forest_perm (roots : List Task) :
    (forest roots).Perm (roots ++ forest (roots.flatMap posts)) := by
  induction roots with
  | nil => exact .nil
  | cons task rest ih =>
      rw [forest_cons, List.flatMap_cons, forest_append, List.cons_append]
      refine .cons task ((ih.append_left _).trans ?_)
      rw [← List.append_assoc, ← List.append_assoc]
      exact List.perm_append_comm.append_right _

theorem levelOrder_perm (roots : List Task) : (levelOrder roots).Perm (forest roots) := by
  generalize size : weights roots = bound
  induction bound using Nat.strongRecOn generalizing roots with
  | ind bound ih =>
      by_cases none : roots = []
      · rw [none]
        exact .nil
      · have lighter := weights_posts_lt none
        have below := ih _ (size ▸ lighter) (roots.flatMap posts) rfl
        rw [levelOrder_eq]
        exact (below.append_left roots).trans (forest_perm roots).symm

end Task

end Reclaim
