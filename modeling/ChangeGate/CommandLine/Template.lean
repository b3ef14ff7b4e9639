/-!
The workflow file with which somebody starts.
-/

namespace ChangeGate.CommandLine

def templateLines : List String :=
  ["version: \"1\"",
    "name: ci",
    "",
    "change_detection:",
    "  patterns: [\"src/\", \"tests/\"]",
    "",
    "matrix:",
    "  axes:",
    "    runtime_version: [\"3.11\", \"3.12\"]",
    "    task_type: [\"tests\", \"lint\"]",
    "  instances:",
    "    - \x7b runtime_version: \"3.11\", task_type: tests \x7d",
    "    - \x7b runtime_version: \"3.12\", task_type: tests, always_run: true \x7d",
    "    - \x7b runtime_version: \"3.12\", task_type: lint, always_run: true \x7d",
    "",
    "task:",
    "  run: |",
    "    echo \"Running $\x7b\x7b matrix.task_type \x7d\x7d on " ++
      "$\x7b\x7b matrix.runtime_version \x7d\x7d\"",
    "    # Add your commands here"]

def template : String := String.join (templateLines.map (· ++ "\n"))

end ChangeGate.CommandLine
