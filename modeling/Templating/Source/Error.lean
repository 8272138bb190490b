/-!
# Errors of template stores
-/

namespace Templating

inductive StoreError
  | notFound (path : String)
  | io (path message : String)
  | unsupported (path reason : String)
  deriving DecidableEq

namespace StoreError

def message : StoreError → String
  | .notFound path => s!"`{path}` does not exist"
  | .io path message => s!"`{path}` could not be read: {message}"
  | .unsupported path reason => s!"`{path}` is not supported by this store: {reason}"

end StoreError

end Templating
