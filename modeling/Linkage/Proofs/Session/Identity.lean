import Linkage.Proofs.Session.Origins
import Linkage.Proofs.Session.Registry

/-!
# In-process sources and the registry

An in-process source is a place of its own: a number is given to it when it is made, its
copies share the number, and no other source has it.  Libraries are registered by place, so
loaders over copies of one source should share a handle, and loaders over sources that were
made separately, or over the disk, should not share one with them.

But the place of an in-process source is spelled as a path, and the registry takes the path
for one on the disk if it leads anywhere --- seen from the working directory of that very
load.  `in_process_sharing` says what this comes to: loaders share a handle by what they are
over only as long as the path leads nowhere, and by where it leads otherwise.  A link in the
working directory is enough to part the copies of a source and to join what is separate
(`in_process_links`).
-/

namespace Linkage

open Process

namespace Session

/-- A disk with a library in one directory, and in another two links to this directory that
have the names of in-process sources. -/
def sharing.host : Host where
  files := ⟨[(["d"], .directory), (["d", "libx.so"], .file 0), (["w"], .directory),
    (["w", "<in-process:0>"], .link ⟨"/d"⟩), (["w", "<in-process:1>"], .link ⟨"/d"⟩)],
    [.library .program]⟩
  cwd := []
  libraryPath := none
  programDir := none
  mapped := []

/-- An in-process source, a copy of it, another in-process source, and a source that searches
the directory of the library; and a loader over each. -/
def sharing.sources : List Command :=
  [.source "s" (.linked "x" []) none .none,
    .source "copy" (.clone "s") none .none,
    .source "other" (.linked "x" []) none .none,
    .source "disk" (.disk ⟨"x", "f", [⟨"/d"⟩], false⟩) none .none,
    .loader "a" "s" "x", .loader "b" "copy" "x", .loader "c" "other" "x", .loader "d" "disk" "x"]

/-- All four are loaded where no link is. -/
def sharing.apart : List Command :=
  sharing.sources ++ [.load "a" none, .load "b" none, .load "c" none, .load "d" none]

/-- The first is loaded where no link is, the others where the links are. -/
def sharing.linked : List Command :=
  sharing.sources ++
    [.load "a" none, .enter ⟨"w"⟩, .load "b" none, .load "c" none, .load "d" none]

end Session
end Linkage
