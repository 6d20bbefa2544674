/-
Extended grapheme clusters: the units in which scripts count and cut text. `clusters` partitions the
characters of a text, reading it once from the left.

* `flatten_clusters`: nothing is lost or added, and `ne_nil_of_mem_clusters`: no cluster is empty.
-/
import ScriptValues.Text.Break

namespace ScriptValues.Text

/-- The rest of the cluster in state `x`, and the clusters after it. -/
def clustersFrom (x : Context) : List Char → List Char × List (List Char)
  | [] => ([], [])
  | c :: cs =>
    let b := breakClass c
    if x.continues b then
      let (rest, after) := clustersFrom (x.push b) cs
      (c :: rest, after)
    else
      let (rest, after) := clustersFrom (.start b) cs
      ([], (c :: rest) :: after)

/-- The grapheme clusters of a text, in order. -/
def clusters : List Char → List (List Char)
  | [] => []
  | c :: cs =>
    let (rest, after) := clustersFrom (.start (breakClass c)) cs
    (c :: rest) :: after

theorem clustersFrom_append (x : Context) (cs : List Char) :
    (clustersFrom x cs).1 ++ (clustersFrom x cs).2.flatten = cs := by
  induction cs generalizing x with
  | nil => rfl
  | cons c cs ih =>
    simp only [clustersFrom]
    split <;> simp [ih]

theorem flatten_clusters (cs : List Char) : (clusters cs).flatten = cs := by
  cases cs with
  | nil => rfl
  | cons c cs => simp [clusters, clustersFrom_append]

theorem ne_nil_of_mem_clustersFrom {x : Context} {cs g : List Char}
    (h : g ∈ (clustersFrom x cs).2) : g ≠ [] := by
  induction cs generalizing x with
  | nil => simp [clustersFrom] at h
  | cons c cs ih =>
    simp only [clustersFrom] at h
    split at h
    · exact ih h
    · rcases List.mem_cons.1 h with rfl | h
      · simp
      · exact ih h

theorem ne_nil_of_mem_clusters {cs g : List Char} (h : g ∈ clusters cs) : g ≠ [] := by
  cases cs with
  | nil => simp [clusters] at h
  | cons c cs =>
    rcases List.mem_cons.1 h with rfl | h
    · simp
    · exact ne_nil_of_mem_clustersFrom h

end ScriptValues.Text
