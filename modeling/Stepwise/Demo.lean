/-!
# The built-in program

What is traced when no file is given: every kind of container, loops, functions and a `main`.
-/

set_option autoImplicit false

namespace Stepwise

def demoLines : List String :=
  ["#include <iostream>",
   "#include <stack>",
   "#include <queue>",
   "#include <list>",
   "using namespace std;",
   "",
   "stack<int> history;",
   "queue<string> jobs;",
   "list<int> ring;",
   "",
   "// Push the first n squares",
   "void fillSquares(int n) \x7b",
   "    for (int i = 1; i <= n; i++) \x7b",
   "        history.push(i * i);",
   "    \x7d",
   "\x7d",
   "",
   "int sumArray(int values[], int size) \x7b",
   "    int total = 0;",
   "    for (int i = 0; i < size; i++) \x7b",
   "        total += values[i];",
   "    \x7d",
   "    return total;",
   "\x7d",
   "",
   "int main() \x7b",
   "    fillSquares(4);",
   "    history.pop();",
   "",
   "    jobs.push(\"parse\");",
   "    jobs.push(\"lower\");",
   "    jobs.push(\"run\");",
   "    while (!jobs.empty() && jobs.front() != \"run\") \x7b",
   "        jobs.pop();",
   "    \x7d",
   "",
   "    int scores[5] = \x7b3, 1, 4\x7d;",
   "    scores[3] = 1;",
   "    scores[4] = sumArray(scores, 4);",
   "    scores[9] = 7; // out of range: ignored",
   "",
   "    for (int i = 0; i < 4; i++) \x7b",
   "        ring.push_back(i * 10);",
   "    \x7d",
   "    ring.remove(20);",
   "    ring.pop_back();",
   "    ring.push_front(-5);",
   "",
   "    int top = history.top();",
   "    if (top > 4) \x7b",
   "        history.push(top / 2);",
   "    \x7d else \x7b",
   "        history.push(0);",
   "    \x7d",
   "",
   "    cout << \"done\" << endl;",
   "    return 0;",
   "\x7d"]

/-- The text of the built-in program. -/
def demo : String :=
  String.join (demoLines.map (· ++ "\n"))

end Stepwise
