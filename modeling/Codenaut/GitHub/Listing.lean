import Codenaut.GitHub.Schemas

/-!
# Paged listings

`GitHubClient.list_installation_repositories` (`app/github/client.py`) over the
pages of a listing at GitHub.
-/

set_option autoImplicit false

namespace Codenaut.GitHub

/-- `MAX_PAGES`. -/
def maxPages : Nat := 10

/-- `PAGE_SIZE`. -/
def pageSize : Nat := 100

variable {Item : Type}

/-- The loop over the pages that are left. A page is `none` if its request fails
or an item is not of the schema. -/
def listPages (pages : Nat → Option (List Item)) : Nat → Nat → List Item → Option (List Item)
  | 0, _, items => some items
  | left + 1, page, items =>
      match pages page with
      | none => none
      | some pageItems =>
          if pageItems.length < pageSize then some (items ++ pageItems)
          else listPages pages left (page + 1) (items ++ pageItems)

/-- `list_installation_repositories`. -/
def listInstallationRepositories (pages : Nat → Option (List Repository)) :
    Option (List Repository) :=
  listPages pages maxPages 1 []

/-- Page `page` of a listing under `per_page`, unless the request fails. -/
def listingPage (listing : List Item) (fails : Nat → Bool) (page : Nat) : Option (List Item) :=
  if fails page then none else some ((listing.drop ((page - 1) * pageSize)).take pageSize)

/-- The loop collects what is left of the listing, up to its last page. -/
theorem listPages_some {listing : List Item} {fails : Nat → Bool} {left page : Nat}
    {items collected : List Item} (numbered : 0 < page)
    (listed : listPages (listingPage listing fails) left page items = some collected) :
    collected = items ++ (listing.drop ((page - 1) * pageSize)).take (left * pageSize) := by
  induction left generalizing page items with
  | zero => simpa [listPages] using listed.symm
  | succ left later =>
      simp only [listPages, listingPage] at listed
      by_cases failed : fails page
      · simp [failed] at listed
      · simp only [failed, Bool.false_eq_true, if_false] at listed
        split at listed
        case isTrue short =>
          simp only [Option.some.injEq, List.length_take, List.length_drop] at listed short
          rw [← listed, List.take_of_length_le, List.take_of_length_le]
          · rw [List.length_drop, Nat.succ_mul]
            omega
          · rw [List.length_drop]
            omega
        case isFalse full =>
          have rest := later (Nat.succ_pos page) listed
          have next : (page + 1 - 1) * pageSize = (page - 1) * pageSize + pageSize := by
            rw [Nat.add_sub_cancel, ← Nat.succ_mul]
            congr 1
            omega
          rw [rest, next, ← List.drop_drop, List.append_assoc, ← List.take_add,
            Nat.succ_mul, Nat.add_comm (left * pageSize)]

/-- Whatever the client returns is the listing up to its cap. -/
theorem listInstallationRepositories_some {listing collected : List Repository}
    {fails : Nat → Bool}
    (listed : listInstallationRepositories (listingPage listing fails) = some collected) :
    collected = listing.take (maxPages * pageSize) := by
  simpa using listPages_some Nat.one_pos listed

theorem listPages_isSome (listing : List Item) (left page : Nat) (items : List Item) :
    (listPages (listingPage listing fun _ => false) left page items).isSome = true := by
  induction left generalizing page items with
  | zero => rfl
  | succ left later =>
      simp only [listPages, listingPage, Bool.false_eq_true, if_false]
      split
      · rfl
      · exact later _ _

/-- A client whose requests all go through returns the listing up to its cap. -/
theorem listInstallationRepositories_eq (listing : List Repository) :
    listInstallationRepositories (listingPage listing fun _ => false) =
      some (listing.take (maxPages * pageSize)) := by
  obtain ⟨collected, listed⟩ := Option.isSome_iff_exists.mp
    (listPages_isSome listing maxPages 1 [])
  rw [listInstallationRepositories, listed,
    @listInstallationRepositories_some listing collected (fun _ => false) listed]

end Codenaut.GitHub
