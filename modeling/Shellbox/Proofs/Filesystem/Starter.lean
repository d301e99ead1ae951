import Shellbox.Filesystem.Starter
import Shellbox.Proofs.Filesystem.Planting

/-!
# Planting the starter tree

None of the paths of the starter tree is in the way of another, so all of them are planted, and a
filesystem with the usual home directory can always be made.
-/

namespace Shellbox.Filesystem

/-- Normal paths are planted in an empty filesystem if none of them is the root or leads through
another. -/
theorem populate_of_apart {fs : Filesystem} {i : Info} {tree : List (String × Option String)}
    {places : List (List String)} (hempty : fs.root = .dir i [])
    (hcwd : Path.IsNormal fs.cwd) (htree : tree.map (·.1) = places.map Path.render)
    (hnames : ∀ ns ∈ places, ns ≠ [] ∧ ∀ n ∈ ns, Path.IsName n)
    (hapart : places.Pairwise fun ms ns => ¬ ms <+: ns ∧ ¬ ns <+: ms) (now : Instant) :
    ∃ root, fs.populate now tree = ({ fs with root }, .ok ()) ∧
      Holds { fs with root } (tree.reverse.flatMap fs.spots) := by
  have hplaces : tree.map (fun x => fs.names (some x.1)) = places := by
    have hread : ∀ ns ∈ places, fs.names (some (Path.render ns)) = ns := by
      intro ns hns
      have hproper := (hnames ns hns).2
      rw [names, resolve, Path.resolve_of_isNormal fs.home fs.cwd ⟨ns, hproper, rfl⟩,
        Path.segments_render hproper]
    calc tree.map (fun x => fs.names (some x.1))
        = (tree.map (·.1)).map fun p => fs.names (some p) := by rw [List.map_map]; rfl
      _ = places.map fun ns => fs.names (some (Path.render ns)) := by
          rw [htree, List.map_map]; rfl
      _ = places := by rw [List.map_congr_left hread, List.map_id']
  have hclear : tree.Pairwise fs.Apart := by
    rw [← hplaces, List.pairwise_map] at hapart
    exact hapart.imp fun h => ⟨fun _ => h.1, fun _ => h.2⟩
  have hroot : ∀ x ∈ tree, x.2.isSome → fs.names (some x.1) ≠ [] := fun x hx _ =>
    (hnames _ (hplaces ▸ List.mem_map_of_mem hx)).1
  have hstart : fs.Holds (([] : List (String × Option String)).flatMap fs.spots) :=
    Holds.of_empty hempty
  obtain ⟨root, hpopulate, hholds⟩ := hstart.populate hcwd now hclear (by simp) hroot
  rw [List.append_nil] at hholds
  exact ⟨root, hpopulate, hholds⟩

namespace Starter

/-- The names on the way to the paths of the starter tree. -/
def places : List (List String) := [
  ["home", "user", "readme.txt"],
  ["home", "user", ".flag.txt"],
  ["home", "user", "cyberops", "dhm.txt"],
  ["home", "user", "cyberops", "lss.txt"],
  ["home", "user", "cyberops", "purplesploit.txt"],
  ["home", "user", "cyberops", "ictf.txt"],
  ["home", "user", "cyberops", "mcp-kali.txt"],
  ["home", "user", "research", "hardware", "mini-cnc.txt"],
  ["home", "user", "research", "radio", "rtl-sdr.txt"],
  ["home", "user", "research", "chemistry", "pcb-etching.txt"],
  ["home", "user", "intel", "ctf-writeups", "daily-bugle.txt"],
  ["home", "user", "intel", "ctf-writeups", "rootme.txt"],
  ["home", "user", "intel", "technical-notes", "linux-privesc.txt"],
  ["home", "user", "intel", "technical-notes", "web-attacks.txt"],
  ["home", "user", "about", "profile.txt"],
  ["home", "user", "about", "certifications.txt"],
  ["home", "user", "about", "contact.txt"],
  ["etc", "passwd"],
  ["etc", "hosts"],
  ["etc", "motd"],
  ["tmp"]]

theorem tree_places : tree.map (·.1) = places.map Path.render := by
  decide +kernel

theorem places_isName : ∀ ns ∈ places, ns ≠ [] ∧ ∀ n ∈ ns, Path.IsName n := by
  decide +kernel

theorem places_apart : places.Pairwise fun ms ns => ¬ ms <+: ns ∧ ¬ ns <+: ms := by
  decide +kernel

end Starter

theorem populate_starter (now : Instant) (home : String) :
    ∃ root, (empty now home).populate now Starter.tree = ({ empty now home with root }, .ok ()) ∧
      Holds { empty now home with root } (Starter.tree.reverse.flatMap (empty now home).spots) :=
  populate_of_apart (i := ⟨"", directoryMode, now, now⟩) rfl Path.isNormal_root Starter.tree_places
    Starter.places_isName Starter.places_apart now

/-- A filesystem with the starter tree can be made whatever directory it is to start in. -/
theorem create_starter (now : Instant) (home : String) (initial : Option String) :
    ∃ fs, create now home Starter.tree initial = .ok fs := by
  obtain ⟨root, hpopulate, -⟩ := populate_starter now home
  exact ⟨_, by rw [create, hpopulate]⟩

end Shellbox.Filesystem
