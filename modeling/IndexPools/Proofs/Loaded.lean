import IndexPools.Proofs.Loading
import IndexPools.Proofs.Run

/-!
# Loaded stores

A manifest that loads gives a store in which every register stands under its own key
(`Store.Initial.keyed`).
-/

namespace IndexPools

/-- A store in which nothing was declared or visited yet: empty, or what a manifest describes. -/
def Store.Initial (s : Store) : Prop := s = .empty ∨ ∃ document, Manifest.load document = .ok s

theorem Store.Initial.keyed {s : Store} (h : s.Initial) : s.Keyed := by
  rcases h with rfl | ⟨document, h⟩
  · exact keyed_empty
  · unfold Manifest.load at h
    rcases hm : Manifest.read? document with _ | m
    · simp [hm] at h
    · simp only [hm] at h
      exact Kind.key_of_load (fun _ _ => rfl) (Manifest.store_eq_ok.1 h).2

end IndexPools
